import ModuleAtlas.Script.Grammar.Module

/-!
# Parsing of whole scripts

Parsing whole scripts: the grammar with its recursion tied, and the choice of dialects by the
extension of a file.
-/

namespace ModuleAtlas.Script

open Script.Parser

def production (recur : Grammar) : Grammar
  | .statement => anyStatement recur
  | .block => statementBlock recur
  | .expression mode => fullExpression recur mode
  | .expressions mode => sequenceExpression recur mode
  | .binary mode level => binaryExpression recur mode level
  | .operand mode => operandExpression recur mode
  | .primary mode => primaryExpression recur mode
  | .leftHandSide => leftHandSide recur .enclosed
  | .pattern => patternTarget recur
  | .parameters => formalParameters recur
  | .arguments => argumentList recur
  | .template => templateLiteral recur
  | .element => markupElement recur
  | .classBody => classMembers recur
  | .decorator => decoratorMark recur
  | .typeExpression => fullType recur
  | .primaryType => postfixType recur
  | .typeArguments => typeArgumentList recur
  | .typeParameters => typeParameterList recur
  | .typeMembers => typeMemberList recur
  | .returnType => resultAscription recur

def grammar : Nat → Grammar
  | 0 => fun _ => refuse
  | depth + 1 => production (grammar depth)

/-- Reads the line that names an interpreter, if the script begins with one. -/
def interpreterLine : Parser Unit := do
  skipToOperand
  if "#!".toList.isPrefixOf (← rest) then
    let here ← cursor
    moveTo (Cursor.skipWhile (· != '\n') here.rest here.offset)
  else pure ()

def program (recur : Grammar) : Parser Tree := do
  interpreterLine
  let statements ← iterate [] fun found => do
    skipToOperand
    if (← rest).isEmpty then return .inr found.reverse
    return .inl ((← recur .statement) :: found)
  node "program" 0 statements

mutual

/-- Whether an object holds a name with a value behind an equals sign, which only a pattern may. -/
def hasStrayDefault : Tree → Bool
  | ⟨kind, _, _, _, _, _, _, children⟩ =>
    (kind == "object" && children.any fun child => child.kind == "object_assignment_pattern")
      || anyStrayDefault children

def anyStrayDefault : List Tree → Bool
  | [] => false
  | tree :: rest => hasStrayDefault tree || anyStrayDefault rest

end

/-- The syntax tree of a script, if it has one in the given dialect. -/
def tree? (dialect : Dialect) (text : String) : Except Nat Tree :=
  let limit := text.length + 2
  match program (grammar (8 * limit)) ⟨dialect, limit⟩ { cursor := Cursor.ofText text } with
  | .success tree state => if hasStrayDefault tree then .error state.reached else .ok tree
  | .failure state => .error state.reached

/-- The dialects to try for a file with the given extension, in lower case. -/
def dialects (extension : String) : List Dialect :=
  if extension == ".js" || extension == ".jsx" then [.javascript, .tsx]
  else if extension == ".ts" then [.typescript]
  else if extension == ".tsx" then [.tsx]
  else []

def extensions : List String := [".js", ".jsx", ".ts", ".tsx"]

end ModuleAtlas.Script
