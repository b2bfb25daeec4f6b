import ModuleAtlas.Script.Lowering
import ModuleAtlas.Script.Repair
import ModuleAtlas.Text.LetterCase

/-!
# Reading of scripts

The records of a script, or why it has none.
-/

namespace ModuleAtlas.Script

/-- Why a script has no records. -/
inductive Refusal where
  | unsupported (extension : String)
  | malformed (fault : SyntaxFault)
  deriving DecidableEq, Repr

def Refusal.message : Refusal → String
  | .unsupported extension => "Unsupported source extension: " ++ extension
  | .malformed fault => fault.message

/-- The records of a script in the first of the dialects that it parses in. The fault is the one of
the first dialect. -/
def recordsIn (text : String) (first : Dialect) (others : List Dialect) :
    Except Refusal (List Record) :=
  let source := Source.ofText text
  match tree? first text with
  | .ok tree => .ok (lower source tree)
  | .error reached =>
    match others.findSome? fun dialect => (tree? dialect text).toOption with
    | some tree => .ok (lower source tree)
    | none => .error (.malformed (Repair.faultAt first text reached))

def records (text extension : String) : Except Refusal (List Record) :=
  match dialects (Text.lower extension) with
  | [] => .error (.unsupported extension)
  | first :: others => recordsIn text first others

end ModuleAtlas.Script
