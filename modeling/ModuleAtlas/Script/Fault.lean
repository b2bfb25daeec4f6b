import ModuleAtlas.Script.Tree
import ModuleAtlas.Text.Blank
import ModuleAtlas.Text.Quoted

/-!
# Faults in scripts

What is wrong with a script that does not parse: the first node, in the order of the document, that
is missing or covers octets that fit nowhere.
-/

namespace ModuleAtlas.Script

inductive FaultCause where
  | missing (kind : String)
  | unexpected (snippet : String)
  | unspecified
  deriving DecidableEq, Repr

/-- A syntax fault; lines count from one, columns in octets from zero. -/
structure SyntaxFault where
  cause : FaultCause
  line : Nat
  column : Nat
  deriving DecidableEq, Repr

namespace SyntaxFault

def message (fault : SyntaxFault) : String :=
  let subject :=
    match fault.cause with
    | .missing kind => "Missing " ++ Text.Quoted.quote kind
    | .unexpected snippet => "Unexpected token " ++ Text.Quoted.quote snippet
    | .unspecified => "Syntax error"
  s!"{subject} ({fault.line}:{fault.column})"

/-- The longest snippet that a fault shows. -/
def snippetLength : Nat := 20

/-- The first line of a text, without blanks around the text and cut to a fixed length. -/
def snippet (text : String) : String :=
  match Text.lines (Text.trim text) with
  | [] => ""
  | line :: _ => Text.take snippetLength line

def ofNode? (source : Source) (node : Tree) : Option SyntaxFault :=
  let place (cause : FaultCause) : SyntaxFault := ⟨cause, node.point.1 + 1, node.point.2⟩
  if node.missing then some (place (.missing node.kind))
  else if node.isError then some (place (.unexpected (snippet (source.text node))))
  else none

def faulty (node : Tree) : List Tree :=
  node.children.filter Tree.hasError

/-- The fault of the first of the waiting nodes that has one, each followed by the nodes below it
that have an error. -/
def first? (source : Source) : List Tree → Option SyntaxFault
  | [] => none
  | node :: rest =>
    match ofNode? source node with
    | some fault => some fault
    | none => first? source (faulty node ++ rest)
termination_by pending => Tree.weights pending
decreasing_by
  simp only [faulty, Tree.weights, Tree.weights_append, Tree.weight_eq]
  have := Tree.weights_filter_le Tree.hasError node.children
  omega

def describe (source : Source) (root : Tree) : SyntaxFault :=
  (first? source [root]).getD ⟨.unspecified, root.point.1 + 1, root.point.2⟩

end SyntaxFault

end ModuleAtlas.Script
