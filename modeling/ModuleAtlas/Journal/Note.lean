/-!
# Notes

Notes that the stages of an analysis take while they work, and computations that take them.
-/

namespace ModuleAtlas.Journal

/-- How much a note matters. -/
inductive Level where
  | debug
  | info
  | warning
  | error
  | critical
  deriving DecidableEq, Repr

namespace Level

def name : Level → String
  | .debug => "DEBUG"
  | .info => "INFO"
  | .warning => "WARNING"
  | .error => "ERROR"
  | .critical => "CRITICAL"

/-- The rank of a level: the more a note matters, the higher. -/
def rank : Level → Nat
  | .debug => 10
  | .info => 20
  | .warning => 30
  | .error => 40
  | .critical => 50

def passes (level threshold : Level) : Bool :=
  threshold.rank ≤ level.rank

end Level

/-- Who takes a note. -/
inductive Hand where
  /-- The course of the program itself. -/
  | main
  /-- One of those who read files at the same time. -/
  | reader
  /-- The one who works against a time budget. -/
  | timed
  deriving DecidableEq, Repr

/-- A note of a stage. The stage without a name is the program as a whole. -/
structure Note where
  level : Level
  stage : String
  text : String
  hand : Hand := .main
  deriving DecidableEq, Repr

/-- A computation that takes notes and may fail. The notes stay also when it fails. -/
abbrev Recorded (ε α : Type) : Type :=
  ExceptT ε (StateM (List Note)) α

namespace Recorded

def takeNotes {ε : Type} (notes : List Note) : Recorded ε Unit :=
  modifyGet fun before => ((), before ++ notes)

def takeNote {ε : Type} (level : Level) (stage text : String) : Recorded ε Unit :=
  takeNotes [⟨level, stage, text, .main⟩]

/-- The outcome of a computation that takes no notes. -/
def ofExcept {ε α : Type} (result : Except ε α) : Recorded ε α :=
  match result with
  | .ok value => pure value
  | .error fault => throw fault

def outcome {ε α : Type} (computation : Recorded ε α) : Except ε α × List Note :=
  StateT.run computation.run []

end Recorded

end ModuleAtlas.Journal
