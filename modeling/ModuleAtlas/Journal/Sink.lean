import ModuleAtlas.Disk.RealPath
import ModuleAtlas.Journal.Note
import ModuleAtlas.Text.Utf8

/-!
# Where notes go

Where notes go: to the console and, if wished, to a file. Both have a threshold and a form of their
own.
-/

namespace ModuleAtlas.Journal

/-- The name under which the notes of all stages are gathered. -/
def programName : String := "stackmap"

/-- The stage as it is shown; the program as a whole has a name of its own. -/
def shownStage (stage : String) : String :=
  if stage == "" then "main" else stage

/-- What is wished about notes. -/
structure Wishes where
  verbose : Bool := false
  quiet : Bool := false
  file : Option String := none
  deriving DecidableEq, Repr

namespace Wishes

def level (wishes : Wishes) : Level :=
  if wishes.verbose then .debug else .info

/-- The threshold for the console. To be verbose wins over to be quiet. -/
def consoleLevel (wishes : Wishes) : Level :=
  if wishes.quiet && !wishes.verbose then .warning else wishes.level

def consoleLine (wishes : Wishes) (note : Note) : String :=
  let place := if wishes.verbose then s!":{shownStage note.stage}" else ""
  s!"[{programName}{place}] {note.level.name} {note.text}\n"

def consoleText (wishes : Wishes) (notes : List Note) : String :=
  let shown := notes.filter fun note => note.level.passes wishes.consoleLevel
  String.join (shown.map wishes.consoleLine)

end Wishes

/-- How the time and the readers of files are named in a file of notes. -/
structure Stamp where
  time : String
  reader : String
  deriving DecidableEq, Repr

def Stamp.handName (stamp : Stamp) : Hand → String
  | .main => "MainThread"
  | .reader => stamp.reader
  | .timed => s!"{programName}-run_0"

def Stamp.line (stamp : Stamp) (note : Note) : String :=
  s!"{stamp.time} {note.level.name} {shownStage note.stage} [{stamp.handName note.hand}] "
    ++ s!"{note.text}\n"

def Stamp.text (stamp : Stamp) (wishes : Wishes) (notes : List Note) : String :=
  String.join ((notes.filter fun note => note.level.passes wishes.level).map stamp.line)

/-! ## The file of notes -/

def notesPath (workingDirectory path : String) : String :=
  Path.normalize (Path.join workingDirectory path)

/-- Adds octets at the end of a file, which is made if there is none. -/
def append (disk : Disk.Item) (path : String) (octets : List UInt8) :
    Except Disk.Trouble Disk.Item :=
  match Disk.read disk path with
  | .ok before => Disk.write disk path (before ++ octets)
  | .error ⟨.absent, _⟩ => Disk.write disk path octets
  | .error trouble => .error trouble

/-- Makes sure that the file of notes can take notes. -/
def prepare (workingDirectory : String) (wishes : Wishes) (disk : Disk.Item) :
    Except Disk.Trouble Disk.Item :=
  match wishes.file with
  | none => .ok disk
  | some path => append disk (notesPath workingDirectory path) []

def store (workingDirectory : String) (stamp : Stamp) (wishes : Wishes) (notes : List Note)
    (disk : Disk.Item) : Except Disk.Trouble Disk.Item :=
  match wishes.file with
  | none => .ok disk
  | some path =>
    append disk (notesPath workingDirectory path) (Text.Utf8.encode (stamp.text wishes notes))

end ModuleAtlas.Journal
