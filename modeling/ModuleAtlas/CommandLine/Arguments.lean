import ModuleAtlas.CommandLine.Form
import ModuleAtlas.Number.Reading
import ModuleAtlas.Path
import ModuleAtlas.Text.Digit
import ModuleAtlas.Text.Quoted

/-!
# Reading of arguments

How the arguments of a command line are taken by its form: options may be shortened as long as they
stay clear, short ones may be joined, and everything behind two dashes is no option.
-/

namespace ModuleAtlas.CommandLine

inductive Value where
  | marked
  | text (text : String)
  | path (path : String)
  | real (value : Binary64)
  | whole (value : Int)
  deriving DecidableEq, Repr

/-- Why reading ends early. -/
inductive Stop where
  /-- The explanation was asked for. -/
  | explained (text : String)
  /-- The arguments do not fit the form. -/
  | refused (text : String)
  deriving DecidableEq, Repr

def Form.refuse {α : Type} (form : Form) (complaint : String) : Except Stop α :=
  .error (.refused (form.usage ++ s!"{form.program}: error: {complaint}\n"))

def Form.refuseArgument {α : Type} (form : Form) (title complaint : String) : Except Stop α :=
  form.refuse s!"argument {title}: {complaint}"

/-! ## What an argument is -/

/-- A text that is attached to an option, with or without an equals sign. -/
structure Attached where
  byEquals : Bool
  text : String
  deriving DecidableEq, Repr

/-- What an argument is, as long as its neighbours are not looked at. -/
inductive Piece where
  | divider
  | plain (text : String)
  | known (switch : Switch) (name : String) (attached : Option Attached)
  | unknown (text : String)
  deriving DecidableEq, Repr

structure Argument where
  text : String
  piece : Piece
  deriving DecidableEq, Repr

def Piece.isOption : Piece → Bool
  | .known _ _ _ => true
  | .unknown _ => true
  | _ => false

def Piece.isPlain : Piece → Bool
  | .plain _ => true
  | _ => false

def Form.named (form : Form) : List (String × Switch) :=
  form.switches.flatMap fun switch => switch.names.map fun name => (name, switch)

def Form.find? (form : Form) (name : String) : Option Switch :=
  form.named.lookup name

def splitEquals (text : String) : String × Option String :=
  let before := text.toList.takeWhile (· != '=')
  match text.toList.drop before.length with
  | [] => (text, none)
  | _ :: behind => (String.ofList before, some (String.ofList behind))

/-- The options that a text may mean, which is not the full name of any. -/
def Form.meanings (form : Form) (text : String) : List (String × Piece) :=
  if Text.beginsWith text "--" then
    let (start, behind) := splitEquals text
    (form.named.filter fun option => Text.beginsWith option.1 start).map fun option =>
      (option.1, .known option.2 option.1 (behind.map (⟨true, ·⟩)))
  else
    let short := Text.take 2 text
    form.named.filterMap fun option =>
      if option.1 == short then
        some (option.1, .known option.2 option.1 (some ⟨false, Text.drop 2 text⟩))
      else if Text.beginsWith option.1 text then some (option.1, .known option.2 option.1 none)
      else none

/-- Whether characters are digits, one at least. -/
def areDigits (characters : List Char) : Bool :=
  !characters.isEmpty && characters.all fun character => (Text.digitValue? character).isSome

/-- Whether a text is a negative number; a line end behind it does no harm. -/
def isNegativeNumber (text : String) : Bool :=
  match text.toList with
  | '-' :: rest =>
    let body := if rest.getLast? = some '\n' then rest.dropLast else rest
    let before := body.takeWhile (· != '.')
    match body.drop before.length with
    | [] => areDigits body
    | _ :: behind => (before.isEmpty || areDigits before) && areDigits behind
  | _ => false

def Form.classify (form : Form) (text : String) : Except Stop Piece :=
  if !Text.beginsWith text "-" then .ok (.plain text)
  else
    match form.find? text with
    | some switch => .ok (.known switch text none)
    | none =>
      if text.length = 1 then .ok (.plain text)
      else
        match splitEquals text with
        | (name, some behind) =>
          match form.find? name with
          | some switch => .ok (.known switch name (some ⟨true, behind⟩))
          | none => byMeaning (form.meanings text)
        | (_, none) => byMeaning (form.meanings text)
where
  /-- What an argument is that is no full name. -/
  byMeaning : List (String × Piece) → Except Stop Piece
    | [(_, piece)] => .ok piece
    | [] =>
      if isNegativeNumber text || text.toList.contains ' ' then .ok (.plain text)
      else .ok (.unknown text)
    | meanings =>
      let names := String.intercalate ", " (meanings.map (·.1))
      form.refuse s!"ambiguous option: {text} could match {names}"

/-- What the arguments are. Behind two dashes nothing is an option. -/
def Form.classifyAll (form : Form) : List String → Except Stop (List Argument)
  | [] => .ok []
  | text :: rest =>
    if text == "--" then
      .ok (⟨text, .divider⟩ :: rest.map fun other => ⟨other, .plain other⟩)
    else do
      let piece ← form.classify text
      let others ← form.classifyAll rest
      return ⟨text, piece⟩ :: others

/-! ## Options -/

def ArgumentType.read? (type : ArgumentType) (text : String) : Option Value :=
  match type with
  | .text => some (.text text)
  | .path => some (.path (Path.plain text))
  | .real => (Reading.float text).map .real
  | .whole => (Reading.int text).toOption.map .whole

/-- An option that was found, with its argument. -/
structure Use where
  switch : Switch
  argument : Option String := none
  deriving DecidableEq, Repr

/-- The options that stand in one argument. -/
structure Uses where
  uses : List Use
  /-- The option at the end that still waits for an argument. -/
  waiting : Option Switch := none
  /-- What is left over. -/
  extras : List String := []
  deriving DecidableEq, Repr

/-- The options that stand in one argument, given the first of them and what is attached to it. The
bound is on how many short options are joined. -/
def Form.unfold (form : Form) :
    Nat → List Use → Switch → String → Option Attached → Except Stop Uses
  | _, before, switch, _, none =>
    match switch.effect with
    | .take _ => .ok { uses := before, waiting := some switch }
    | _ => .ok { uses := before ++ [⟨switch, none⟩] }
  | bound, before, switch, name, some attached =>
    let ignored : Except Stop Uses :=
      form.refuseArgument switch.title
        s!"ignored explicit argument {Text.Quoted.quote attached.text}"
    match switch.effect, bound, attached.text.toList with
    | .take _, _, _ => .ok { uses := before ++ [⟨switch, some attached.text⟩] }
    | _, bound + 1, first :: rest =>
      if Text.beginsWith name "--" || attached.byEquals || first == '-' then ignored
      else
        let next := String.ofList ['-', first]
        match form.find? next with
        | none => .ok { uses := before ++ [⟨switch, none⟩], extras := ["-" ++ attached.text] }
        | some other =>
          let further : Option Attached :=
            match rest with
            | [] => none
            | '=' :: behind => some ⟨true, String.ofList behind⟩
            | _ => some ⟨false, String.ofList rest⟩
          form.unfold bound (before ++ [⟨switch, none⟩]) other next further
    | _, _, _ => ignored

def Form.apply (form : Form) (use : Use) : Except Stop (String × Value) :=
  match use.switch.effect, use.argument with
  | .help, _ => .error (.explained form.help)
  | .mark, _ => .ok (use.switch.key, .marked)
  | .take type, argument =>
    let text := argument.getD ""
    match type.read? text with
    | some value => .ok (use.switch.key, value)
    | none =>
      form.refuseArgument use.switch.title
        s!"invalid {type.name} value: {Text.Quoted.quote text}"

/-! ## Reading -/

/-- What was read from arguments. -/
structure Filled where
  values : List (String × Value) := []
  extras : List String := []
  /-- The command with everything that follows it. -/
  command : Option (String × List String) := none
  deriving DecidableEq, Repr

/-- The state of reading: what was read, and whether the operand is still to come. -/
structure Progress where
  filled : Filled := {}
  operand : Option Operand

/-- How many arguments an operand takes from those that come next. -/
def Operand.extent (arguments : List Argument) : Operand → Nat
  | .optional _ _ =>
    let dividers := arguments.takeWhile (·.piece == .divider)
    let rest := arguments.drop dividers.length
    let plain := (rest.take 1).filter (·.piece.isPlain)
    let behind := (rest.drop plain.length).takeWhile (·.piece == .divider)
    dividers.length + plain.length + behind.length
  | .command _ _ =>
    match arguments.dropWhile (·.piece == .divider) with
    | first :: _ => if first.piece.isPlain then arguments.length else 0
    | [] => 0

def Form.giveOperand (form : Form) (filled : Filled) (texts : List String) :
    Operand → Except Stop Filled
  | .optional key _ =>
    match texts.erase "--" with
    | text :: _ => .ok { filled with values := filled.values ++ [(key, .text text)] }
    | [] => .ok filled
  | .command key choices =>
    match texts with
    | [] => .ok filled
    | name :: rest =>
      if choices.any (·.name == name) then .ok { filled with command := some (name, rest) }
      else
        let names := String.intercalate ", " (choices.map (Text.Quoted.quote ·.name))
        form.refuseArgument key
          s!"invalid choice: {Text.Quoted.quote name} (choose from {names})"

/-- Lets the operand take what it can, and tells how many arguments that was. -/
def Form.takeOperand (form : Form) (progress : Progress) (arguments : List Argument) :
    Except Stop (Progress × Nat) :=
  match progress.operand with
  | none => .ok (progress, 0)
  | some operand =>
    match operand, operand.extent arguments with
    | .command _ _, 0 => .ok (progress, 0)
    | _, count => do
      let texts := (arguments.take count).map (·.text)
      let filled ← form.giveOperand progress.filled texts operand
      return ({ filled := filled, operand := none }, count)

def Progress.leave (progress : Progress) (texts : List String) : Progress :=
  { progress with
    filled := { progress.filled with extras := progress.filled.extras ++ texts } }

def Progress.give (progress : Progress) (values : List (String × Value)) : Progress :=
  { progress with
    filled := { progress.filled with values := progress.filled.values ++ values } }

/-- Takes one option with its argument, and tells what comes behind it. -/
def Form.takeOption (form : Form) (progress : Progress) (argument : Argument)
    (rest : List Argument) : Except Stop (Progress × List Argument) :=
  match argument.piece with
  | .known switch name attached => do
    let found ← form.unfold argument.text.length [] switch name attached
    match found.waiting with
    | none =>
      let values ← found.uses.mapM form.apply
      return ((progress.leave found.extras).give values, rest)
    | some waiting =>
      match rest with
      | next :: behind =>
        if next.piece.isPlain then
          let last : Use := ⟨waiting, some next.text⟩
          let values ← (found.uses ++ [last]).mapM form.apply
          return (progress.give values, behind)
        else form.refuseArgument waiting.title "expected one argument"
      | [] => form.refuseArgument waiting.title "expected one argument"
  | _ => .ok (progress.leave [argument.text], rest)

/-- Takes arguments until none is left. The bound is on their number. -/
def Form.takeAll (form : Form) : Nat → Progress → List Argument → Except Stop Progress
  | 0, progress, _ => .ok progress
  | bound + 1, progress, arguments =>
    let before := arguments.takeWhile fun argument => !argument.piece.isOption
    match arguments.drop before.length with
    | [] => do
      let (further, count) ← form.takeOperand progress arguments
      return further.leave ((arguments.drop count).map (·.text))
    | option :: rest =>
      if before.isEmpty then do
        let (further, behind) ← form.takeOption progress option rest
        form.takeAll bound further behind
      else do
        let (further, count) ← form.takeOperand progress arguments
        if 0 < count then form.takeAll bound further (arguments.drop count)
        else
          let (onward, behind) ←
            form.takeOption (further.leave (before.map (·.text))) option rest
          form.takeAll bound onward behind

/-- Reads arguments by a form. A command has to be among them where the form wants one. -/
def Form.read (form : Form) (arguments : List String) : Except Stop Filled := do
  let pieces ← form.classifyAll arguments
  let progress ← form.takeAll (arguments.length + 1) { operand := form.operand } pieces
  match progress.operand with
  | some (.command key _) => form.refuse s!"the following arguments are required: {key}"
  | _ => return progress.filled

end ModuleAtlas.CommandLine
