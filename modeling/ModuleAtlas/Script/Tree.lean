import ModuleAtlas.Text.Utf8

/-!
# Syntax trees

Concrete syntax trees of scripts. A node covers a range of octets of its source, has a kind, may play
a named part (a field) in its parent, and is either a proper node or mere punctuation.
-/

namespace ModuleAtlas.Script

structure Tree where
  /-- The name of the construct, or the spelling of a punctuation mark or keyword. -/
  kind : String
  /-- The octet at which the node begins. -/
  start : Nat
  /-- The octet before which the node ends. -/
  stop : Nat
  /-- Whether the node is a construct of its own rather than punctuation. -/
  named : Bool := true
  /-- The part that the node plays in its parent. -/
  field : Option String := none
  /-- Whether the node stands for something that the source lacks. -/
  missing : Bool := false
  /-- Row and column, in octets and counted from zero, at which the node begins. -/
  point : Nat × Nat := (0, 0)
  children : List Tree := []
  deriving Repr, Inhabited

namespace Tree

mutual

def weight : Tree → Nat
  | ⟨_, _, _, _, _, _, _, children⟩ => 1 + weights children

def weights : List Tree → Nat
  | [] => 0
  | tree :: rest => weight tree + weights rest

end

/-- The children that are constructs of their own. -/
def namedChildren (tree : Tree) : List Tree :=
  tree.children.filter (·.named)

def child? (tree : Tree) (name : String) : Option Tree :=
  tree.children.find? fun child => child.field == some name

def isError (tree : Tree) : Bool :=
  tree.kind == "ERROR"

mutual

/-- Whether anything in the tree is an error or missing. -/
def hasError : Tree → Bool
  | ⟨kind, _, _, _, _, missing, _, children⟩ =>
    kind == "ERROR" || missing || anyError children

def anyError : List Tree → Bool
  | [] => false
  | tree :: rest => hasError tree || anyError rest

end

theorem weight_eq (tree : Tree) : tree.weight = 1 + weights tree.children := by
  cases tree
  rfl

theorem weights_append (left right : List Tree) :
    weights (left ++ right) = weights left + weights right := by
  induction left with
  | nil => simp [weights]
  | cons tree rest inductionHypothesis => simp [weights, inductionHypothesis, Nat.add_assoc]

theorem weights_filter_le (keep : Tree → Bool) (trees : List Tree) :
    weights (trees.filter keep) ≤ weights trees := by
  induction trees with
  | nil => simp
  | cons tree rest inductionHypothesis =>
    by_cases kept : keep tree
    · simp [kept, weights, inductionHypothesis]
    · simp [kept, weights]
      omega

end Tree

/-- The octets of a source, which nodes refer to by ranges. -/
structure Source where
  octets : Array UInt8

namespace Source

def ofText (text : String) : Source :=
  ⟨text.toUTF8.data⟩

/-- The text of a range of octets. Ranges may cut characters, and may lie beyond the end. -/
def slice (source : Source) (start stop : Nat) : String :=
  Text.Utf8.decodeLossy (source.octets.extract start stop).toList

/-- The text that a node covers. -/
def text (source : Source) (node : Tree) : String :=
  source.slice node.start node.stop

/-- The text of the child that plays the given part; empty when there is none. -/
def childText (source : Source) (node : Tree) (name : String) : String :=
  match node.child? name with
  | none => ""
  | some child => source.text child

/-- The list without its first and last character, when both are the same quotation mark. -/
def unquote (characters : List Char) : List Char :=
  match characters with
  | first :: second :: rest =>
    if (first = '\'' ∨ first = '"') ∧ (second :: rest).getLast? = some first then
      (second :: rest).dropLast
    else characters
  | _ => characters

/-- The value of a string literal: its text without the quotation marks. -/
def stringValue (source : Source) (node : Tree) : String :=
  String.ofList (unquote (source.text node).toList)

end Source

end ModuleAtlas.Script
