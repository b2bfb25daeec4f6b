import ModuleAtlas.CommandLine.Arguments

/-!
# Calls of the program

The command line of the program: its three commands and what they may be told.
-/

namespace ModuleAtlas.CommandLine

inductive Task where
  | analyze (path : String) (json : Bool) (output : Option String) (enriched : Bool)
      (timeout : Option Binary64)
  | insights (path : String)
  | serve (host : String) (port : Int)
  deriving DecidableEq, Repr

structure Invocation where
  verbose : Bool
  notesFile : Option String
  task : Task
  deriving DecidableEq, Repr

/-! ## Forms -/

def verboseSwitch : Switch :=
  ⟨["-v", "--verbose"], "verbose", .mark, "Increase log verbosity for troubleshooting."⟩

def pathOperand : Operand :=
  .optional "path" "Path to the project root (defaults to current directory)."

def choices : List Choice :=
  [⟨"analyze", "Produce the full analysis report."⟩,
    ⟨"insights", "Print quick insights for a project."⟩,
    ⟨"serve", "Run the HTTP analysis service."⟩]

def programForm : Form where
  program := "stackmap"
  description :=
    "Statically analyze a JavaScript/TypeScript project and report on its structure."
  operand := some (.command "command" choices)
  switches :=
    [helpSwitch, verboseSwitch,
      ⟨["--log-file"], "log_file", .take .path, "Also write logs to this file."⟩]

def analyzeForm : Form where
  program := "stackmap analyze"
  operand := some pathOperand
  switches :=
    [helpSwitch, verboseSwitch,
      ⟨["--json"], "json", .mark, "Print the report as JSON."⟩,
      ⟨["--output"], "output", .take .path, "Write the JSON report to this file."⟩,
      ⟨["--enrich"], "enrich", .mark,
        "Add narrative insights from a local LLM runner when llm.enabled is set in "
          ++ ".stackmap.yml (falls back to basic analysis otherwise)."⟩,
      ⟨["--timeout"], "timeout", .take .real,
        "Wall-clock budget in seconds for the whole analysis."⟩]

def insightsForm : Form where
  program := "stackmap insights"
  operand := some pathOperand
  switches := [helpSwitch, verboseSwitch]

def serveForm : Form where
  program := "stackmap serve"
  switches :=
    [helpSwitch, verboseSwitch,
      ⟨["--host"], "host", .take .text, "Interface to bind."⟩,
      ⟨["--port"], "port", .take .whole, "Port to listen on."⟩]

/-! ## Calls -/

/-- The last value that a key was given. -/
def Filled.value? (filled : Filled) (key : String) : Option Value :=
  filled.values.reverse.lookup key

def Filled.isMarked (filled : Filled) (key : String) : Bool :=
  (filled.value? key).isSome

def Filled.text? (filled : Filled) (key : String) : Option String :=
  match filled.value? key with
  | some (.text text) => some text
  | some (.path path) => some path
  | _ => none

def Filled.real? (filled : Filled) (key : String) : Option Binary64 :=
  match filled.value? key with
  | some (.real value) => some value
  | _ => none

def Filled.whole? (filled : Filled) (key : String) : Option Int :=
  match filled.value? key with
  | some (.whole value) => some value
  | _ => none

def formOf (command : String) : Form :=
  if command == "analyze" then analyzeForm
  else if command == "insights" then insightsForm
  else serveForm

def taskOf (command : String) (filled : Filled) : Task :=
  let path := (filled.text? "path").getD "."
  if command == "analyze" then
    .analyze path (filled.isMarked "json") (filled.text? "output") (filled.isMarked "enrich")
      (filled.real? "timeout")
  else if command == "insights" then .insights path
  else .serve ((filled.text? "host").getD "127.0.0.1") ((filled.whole? "port").getD 8000)

def read (arguments : List String) : Except Stop Invocation := do
  let outer ← programForm.read arguments
  let (command, rest) := outer.command.getD ("", [])
  let inner ← (formOf command).read rest
  let extras := outer.extras ++ inner.extras
  if !extras.isEmpty then
    programForm.refuse ("unrecognized arguments: " ++ String.intercalate " " extras)
  else
    return { verbose := outer.isMarked "verbose" || inner.isMarked "verbose"
             notesFile := outer.text? "log_file"
             task := taskOf command inner }

end ModuleAtlas.CommandLine
