import ModuleAtlas.Analysis.Basic
import ModuleAtlas.CommandLine.Invocation
import ModuleAtlas.Journal.Sink

/-!
# What a call does

What a call of the program does: what it prints, what it writes and how it ends.
-/

namespace ModuleAtlas.CommandLine

open Journal

inductive Ending where
  | status (code : Nat)
  /-- A file could not be written. -/
  | trouble (trouble : Disk.Trouble)
  /-- The analysis broke off. -/
  | breakdown (cause : Analysis.Breakdown)
  /-- The path of the written file cannot be followed. -/
  | lost (fault : Disk.Lost)
  /-- The report is nested too deeply to be copied. -/
  | nesting
  /-- What is to be written holds a half of a pair. -/
  | brokenText
  deriving DecidableEq, Repr

/-- What a call of the program leaves behind. -/
structure Effects where
  ending : Ending := .status 0
  /-- Where the service was to listen, if it was asked for. -/
  served : Option (String × Int) := none
  output : String := ""
  errors : String := ""
  disk : Disk.Item

/-- What the printed part of a command comes to. -/
structure Printed where
  ending : Ending := .status 0
  output : String := ""
  errors : String := ""
  disk : Disk.Item

/-- A path as seen from a directory, if it leads there; otherwise as it is given. -/
def seenFrom (directory resolved given : String) : String :=
  let start := Path.components directory
  let whole := Path.components resolved
  if start.isPrefixOf whole && start.length < whole.length then
    Path.ofComponents (whole.drop start.length)
  else given

/-- Prints a text. Nothing of it is printed when it cannot be spelled. -/
def printText (disk : Disk.Item) (before : String) (text : RawText) : Printed :=
  match text.proper? with
  | none => { ending := .brokenText, output := before, disk := disk }
  | some text => { output := before ++ text ++ "\n", disk := disk }

/-- Writes a report to a file, and tells where. The file is emptied first, and stays empty when the
report cannot be spelled. -/
def writeReport (surroundings : Surroundings) (json : Bool) (path : String) (payload : RawText) :
    Printed :=
  let location := surroundings.locate path
  let octets := (payload.proper?.map fun text => Text.Utf8.encode (text ++ "\n")).getD []
  match Disk.write surroundings.disk location octets with
  | .error trouble =>
    { ending := .trouble { trouble with path := path }, disk := surroundings.disk }
  | .ok disk =>
    if !payload.isProper then { ending := .brokenText, disk := disk }
    else
      match Disk.realPath disk location with
      | .error fault => { ending := .lost fault, disk := surroundings.disk }
      | .ok resolved =>
        let line := s!"Report written to {seenFrom surroundings.workingDirectory resolved path}\n"
        if json then printText disk line payload else { output := line, disk := disk }

/-- What the command prints that makes a report. A report that cannot be copied, or with a number that
cannot be written, ends the program. -/
def printReport (surroundings : Surroundings) (limits : Json.Limits) (json : Bool)
    (output : Option String) (result : Analysis.Result) : Printed :=
  match result with
  | .failure message =>
    { ending := .status 1, errors := message ++ "\nRun with --verbose for more details.\n",
      disk := surroundings.disk }
  | .success report =>
    match result.document? limits with
    | none => { ending := .nesting, disk := surroundings.disk }
    | some document =>
      if !document.isWritable then
        { ending := .status 1, errors := Reading.unwritableText ++ "\n", disk := surroundings.disk }
      else
        match output with
        | none => printText surroundings.disk "" (if json then document.pretty else report.text)
        | some path => writeReport surroundings json path document.pretty

def printInsights (disk : Disk.Item) : Analysis.Result → Printed
  | .failure message => { ending := .status 1, errors := message ++ "\n", disk := disk }
  | .success report =>
    let lines := report.insights.map fun insight => s!"[{insight.kind}] {insight.message}\n"
    { output := String.join lines, disk := disk }

def printOutcome (disk : Disk.Item) (print : Analysis.Result → Printed)
    (outcome : Except Analysis.Breakdown Analysis.Outcome) : Printed :=
  match outcome with
  | .ok outcome => print outcome.result
  | .error cause => { ending := .breakdown cause, disk := disk }

def Invocation.noteWishes (invocation : Invocation) : Journal.Wishes :=
  let quiet := match invocation.task with
    | .analyze _ json _ _ _ => json
    | _ => false
  { verbose := invocation.verbose, quiet := quiet, file := invocation.notesFile }

def perform (setting : Analysis.Setting) (task : Task) : Printed × List Note :=
  let disk := setting.surroundings.disk
  match task with
  | .serve _ _ => ({ disk := disk }, [])
  | .insights path =>
    let (outcome, notes) := (Analysis.run setting path none false).outcome
    (printOutcome disk (printInsights disk) outcome, notes)
  | .analyze path json output enriched timeout =>
    let (outcome, notes) :=
      (Analysis.run setting path (timeout.map Quantity.real) enriched).outcome
    (printOutcome disk (printReport setting.surroundings setting.limits json output) outcome, notes)

/-- Where the service is to listen that a task asks for. -/
def Task.served? : Task → Option (String × Int)
  | .serve host port => some (host, port)
  | _ => none

def Invocation.run (setting : Analysis.Setting) (stamp : Stamp) (invocation : Invocation) :
    Effects :=
  let wishes := invocation.noteWishes
  let around := setting.surroundings
  match prepare around.workingDirectory wishes around.disk with
  | .error trouble => { ending := .trouble trouble, disk := around.disk }
  | .ok disk =>
    let prepared := { setting with surroundings := { around with disk := disk } }
    let (printed, notes) := perform prepared invocation.task
    let stored := store around.workingDirectory stamp wishes notes printed.disk
    { ending := printed.ending
      served := invocation.task.served?
      output := printed.output
      errors := wishes.consoleText notes ++ printed.errors
      disk := stored.toOption.getD printed.disk }

def run (setting : Analysis.Setting) (stamp : Stamp) (arguments : List String) : Effects :=
  match read arguments with
  | .ok invocation => invocation.run setting stamp
  | .error (.explained text) => { output := text, disk := setting.surroundings.disk }
  | .error (.refused text) =>
    { ending := .status 2, errors := text, disk := setting.surroundings.disk }

end ModuleAtlas.CommandLine
