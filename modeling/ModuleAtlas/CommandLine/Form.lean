import ModuleAtlas.Text.Blank

/-!
# Forms of command lines

The form of a command line: which options it knows, what may stand beside them, and how it explains
itself.
-/

namespace ModuleAtlas.CommandLine

inductive ArgumentType where
  | text
  | path
  | real
  | whole
  deriving DecidableEq, Repr

def ArgumentType.name : ArgumentType → String
  | .text => "str"
  | .path => "Path"
  | .real => "float"
  | .whole => "int"

inductive Effect where
  /-- Explains the command line and ends. -/
  | help
  /-- Marks its key. -/
  | mark
  /-- Gives an argument to its key. -/
  | take (type : ArgumentType)
  deriving DecidableEq, Repr

structure Switch where
  names : List String
  key : String
  effect : Effect
  explanation : String
  deriving DecidableEq, Repr

/-- A command that may be chosen. -/
structure Choice where
  name : String
  explanation : String
  deriving DecidableEq, Repr

/-- What may stand beside the options. -/
inductive Operand where
  /-- At most one text. -/
  | optional (key explanation : String)
  /-- A command with everything that follows it. -/
  | command (key : String) (choices : List Choice)
  deriving DecidableEq, Repr

structure Form where
  program : String
  description : String := ""
  operand : Option Operand := none
  switches : List Switch
  deriving DecidableEq, Repr

def helpSwitch : Switch :=
  ⟨["-h", "--help"], "help", .help, "show this help message and exit"⟩

/-! ## How parts are shown -/

/-- The sign that stands for the argument of an option. -/
def Switch.placeholder (switch : Switch) : String :=
  String.ofList (switch.key.toList.map Char.toUpper)

def Switch.withArgument (switch : Switch) (name : String) : String :=
  match switch.effect with
  | .take _ => s!"{name} {switch.placeholder}"
  | _ => name

def Switch.title (switch : Switch) : String :=
  String.intercalate "/" switch.names

def choiceText (choices : List Choice) : String :=
  "\x7b" ++ String.intercalate "," (choices.map (·.name)) ++ "\x7d"

def Operand.key : Operand → String
  | .optional key _ => key
  | .command key _ => key

def Operand.title : Operand → String
  | .optional key _ => key
  | .command _ choices => choiceText choices

def Operand.usage : Operand → List String
  | .optional key _ => [s!"[{key}]"]
  | .command _ choices => [choiceText choices, "..."]

def Switch.usage (switch : Switch) : String :=
  "[" ++ switch.withArgument (switch.names.headD "") ++ "]"

/-! ## Lines of limited width -/

def lineWidth : Nat := 78

def blanks (count : Nat) : String :=
  String.ofList (List.replicate count ' ')

/-- Distributes words over lines: a word that would reach beyond the limit begins a new line. Given
are the words of the line so far, in reverse, and the width that they take. -/
def fillLines (limit : Nat) : List String → List String → Nat → List (List String)
  | [], [], _ => []
  | [], line, _ => [line.reverse]
  | word :: rest, line, used =>
    if limit < used + 1 + word.length && !line.isEmpty then
      line.reverse :: fillLines limit rest [word] word.length
    else
      fillLines limit rest (word :: line) (if line.isEmpty then used + word.length
        else used + 1 + word.length)

/-- The lines of a text whose words are distributed over lines of a width. -/
def wrap (width : Nat) (text : String) : List String :=
  (fillLines width (Text.split ' ' text) [] 0).map (String.intercalate " ")

/-! ## Usage -/

def usageWord : String := "usage: "

/-- The usage of a form. When it is too long for one line, operands begin a line of their own, and
all lines are indented behind the name of the program. -/
def Form.usage (form : Form) : String :=
  let options := form.switches.map Switch.usage
  let operands := (form.operand.map Operand.usage).getD []
  let whole := usageWord ++ String.intercalate " " (form.program :: options ++ operands)
  if whole.length ≤ lineWidth then whole ++ "\n"
  else
    let indent := usageWord.length + form.program.length + 1
    let join (line : List String) : String := String.intercalate " " line
    let width := lineWidth - indent
    let first := (fillLines width options [] 0).map join
    let second := (fillLines width operands [] 0).map join
    let lines := first ++ second
    usageWord ++ form.program ++ " "
      ++ String.intercalate ("\n" ++ blanks indent) lines ++ "\n"

/-! ## Explanations -/

/-- A line of a list: how deep it stands, what it is about and what is said about it. -/
structure Item where
  indent : Nat
  title : String
  explanation : String

def Operand.items : Operand → List Item
  | .optional key explanation => [⟨2, key, explanation⟩]
  | .command key choices =>
    ⟨2, (Operand.command key choices).title, ""⟩
      :: choices.map fun choice => ⟨4, choice.name, choice.explanation⟩

def Switch.item (switch : Switch) : Item :=
  ⟨2, String.intercalate ", " (switch.names.map switch.withArgument), switch.explanation⟩

def latestColumn : Nat := 24

def columnOf (items : List Item) : Nat :=
  min ((items.map fun item => item.title.length + 2).foldl max 0 + 2) latestColumn

/-- An item as text. A title that leaves no room has its explanation on the next line. -/
def Item.text (column : Nat) (item : Item) : String :=
  let head := blanks item.indent ++ item.title
  if item.explanation == "" then head ++ "\n"
  else
    let lines := wrap (lineWidth - column) item.explanation
    let body := String.intercalate ("\n" ++ blanks column) lines ++ "\n"
    if head.length + 2 ≤ column then head ++ blanks (column - head.length) ++ body
    else head ++ "\n" ++ blanks column ++ body

/-- A list of items under a heading; without items there is none. -/
def listText (column : Nat) (heading : String) (items : List Item) : String :=
  if items.isEmpty then ""
  else "\n" ++ heading ++ ":\n" ++ String.join (items.map (Item.text column))

def Form.help (form : Form) : String :=
  let operands := (form.operand.map Operand.items).getD []
  let options := form.switches.map Switch.item
  let column := columnOf (operands ++ options)
  let description :=
    if form.description == "" then ""
    else "\n" ++ String.intercalate "\n" (wrap lineWidth form.description) ++ "\n"
  form.usage ++ description ++ listText column "positional arguments" operands
    ++ listText column "options" options

end ModuleAtlas.CommandLine
