import ModuleAtlas.Catalog.Extraction
import ModuleAtlas.Disk.Surroundings
import ModuleAtlas.Journal.Note
import ModuleAtlas.Package.Manager
import ModuleAtlas.Package.Manifest
import ModuleAtlas.Settings.Basic
import ModuleAtlas.Survey.Walk

/-!
# The survey of a project

The survey of a project: its source files with what they hold, its manifest, and the files beside it
that tell how it is built.
-/

namespace ModuleAtlas

structure Survey where
  root : String
  table : Table
  manifest : Option Manifest
  markers : List String
  lockFiles : List String
  unreadable : List String

namespace Survey

open Journal

/-- What a caller wishes about a survey, in place of what the settings of the project say. -/
structure Wishes where
  workers : Option Int := none
  respectsIgnoreFile : Option Bool := none
  excluded : Option (List String) := none
  deriving DecidableEq, Repr

/-- How the text of a source becomes an entry. An error is a failure that nobody expects. -/
abbrev Examiner : Type :=
  Source → String → Except String Entry

/-- The examination that reads the text by its grammar. -/
def usualExaminer : Examiner :=
  fun source text => .ok (Entry.ofText source.path source.extension text)

inductive Fault where
  | lost (fault : Disk.Lost)
  | trouble (trouble : Disk.Trouble)
  | absent (path : String)
  | notDirectory (path : String)
  | settings (fault : Settings.Fault)
  | tooFewWorkers
  | manifest (fault : Manifest.Fault)
  deriving DecidableEq, Repr

def Fault.message : Fault → String
  | .lost fault => fault.message
  | .trouble cause => cause.message
  | .absent path => s!"Project path not found: {path}"
  | .notDirectory path => s!"Project path is not a directory: {path}"
  | .settings fault => fault.message
  | .tooFewWorkers => "max_workers must be greater than 0"
  | .manifest fault => fault.message

/-! ## Settings -/

def ignoreFileName : String := ".gitignore"

/-- The settings of a project. Settings with a fault of their own are passed over. -/
def settingsOf (disk : Disk.Item) (root : String) : Recorded Fault (Option Settings) :=
  match Settings.load disk root with
  | .ok settings => return some settings
  | .error fault => do
    if !fault.isForgiven then throw (.settings fault)
    Recorded.takeNote .warning "scanner" s!"Ignoring invalid configuration: {fault.message}"
    return none

def ignoreFileRules (disk : Disk.Item) (root : String) : List Ignore.Rule :=
  match Disk.read disk (Path.join root ignoreFileName) with
  | .ok octets => Ignore.Rule.ofOctets octets
  | .error _ => []

/-- The rules of a search: those of the project's file, then the patterns that are left out. -/
def rulesOf (disk : Disk.Item) (root : String) (wishes : Wishes) (settings : Option Settings) :
    List Ignore.Rule :=
  let respects :=
    (wishes.respectsIgnoreFile.or (settings.map (·.scan.respectsIgnoreFile))).getD true
  let excluded := (wishes.excluded.or (settings.map (·.excluded))).getD []
  (if respects then ignoreFileRules disk root else []) ++ Ignore.Rule.ofPatterns excluded

/-- How many files are read at the same time. Zero means that the caller does not mind. -/
def workersOf (wishes : Wishes) (settings : Option Settings) : Int :=
  let usual := (settings.map (·.scan)).getD {}
  ((wishes.workers.filter (· != 0))).getD usual.workers

/-! ## Sources -/

/-- The entry of a source that cannot be read, with the note about it. -/
def unread (source : Source) (message : String) : Entry × List Note :=
  (Entry.unreadable source.path message,
    [⟨.warning, "parser", s!"Unable to read {source.path}: {message}", .reader⟩])

/-- The entry of a source with the notes that are taken about it. No failure goes further than the
entry. -/
def examine (disk : Disk.Item) (examiner : Examiner) (source : Source) : Entry × List Note :=
  match Disk.read disk source.location with
  | .error trouble => unread source trouble.message
  | .ok octets =>
    match Text.Utf8.decode octets with
    | .error fault => unread source fault.message
    | .ok text =>
      match examiner source text with
      | .error message =>
        (Entry.unparsed source.path message,
          [⟨.warning, "scanner", s!"Failed to analyse {source.path}: {message}", .main⟩])
      | .ok entry =>
        match entry.kind, entry.error with
        | .unparsed, some message =>
          (entry, [⟨.warning, "parser", s!"Failed to parse {source.path}: {message}", .reader⟩])
        | _, _ => (entry, [])

/-- The table of entries under the paths of their sources, by these paths. -/
def tableOf (files : List (String × Entry)) : Table :=
  ⟨(files.mergeSort fun left right => !(right.1 < left.1)).foldl
    (fun known file => Json.putField known file.1 file.2) []⟩

/-! ## Files beside the manifest -/

/-- How the names of files begin that tell how a project is built. -/
def markerStarts : List String := ["vite.config.", "webpack.config.", "next.config."]

/-- The names among those given that lead to files in a directory. -/
def fileNamesAmong (disk : Disk.Item) (root : String) (names : List String) :
    Except Disk.Trouble (List String) :=
  names.filterM fun name => Disk.isFile disk (Path.join root name)

/-- The names of the files in a directory, in order; none when the directory does not tell. -/
def fileNames (disk : Disk.Item) (root : String) : List String :=
  match Disk.find disk root with
  | .ok (.directory true _ entries) =>
    match fileNamesAmong disk root (entries.map (·.1)) with
    | .ok names => names.mergeSort fun left right => !(right < left)
    | .error _ => []
  | _ => []

/-- Whether the name of a file tells how a project is built. -/
def isMarker (name : String) : Bool :=
  markerStarts.any fun start => Text.beginsWith name start

/-! ## The survey -/

def rootOf (surroundings : Surroundings) (path : String) : Except Fault String := do
  let root ← (surroundings.resolve path).mapError .lost
  if !(← (Disk.exists? surroundings.disk root).mapError .trouble) then throw (.absent path)
  if !(← (Disk.isDirectory surroundings.disk root).mapError .trouble) then
    throw (.notDirectory path)
  return root

def unreadableNote (directory : String) : Note :=
  ⟨.warning, "scanner", s!"Skipping unreadable directory {directory}: {Disk.Fault.denied.text}",
    .main⟩

def survey (surroundings : Surroundings) (wishes : Wishes) (examiner : Examiner) (path : String) :
    Recorded Fault Survey := do
  let disk := surroundings.disk
  let root ← Recorded.ofExcept (rootOf surroundings path)
  let settings ← settingsOf disk root
  let found := search disk root (rulesOf disk root wishes settings)
  let unreadable := found.filterMap Finding.unreadable?
  Recorded.takeNotes (unreadable.map unreadableNote)
  let sources := found.filterMap Finding.source?
  Recorded.takeNote .debug "scanner" s!"Discovered {sources.length} source files under {root}"
  if workersOf wishes settings < 1 then throw .tooFewWorkers
  let examined := sources.map fun source => (source.path, examine disk examiner source)
  Recorded.takeNotes (examined.flatMap (·.2.2))
  let manifest ← Recorded.ofExcept ((Manifest.load disk root).mapError .manifest)
  let names := fileNames disk root
  return { root := root
           table := tableOf (examined.map fun file => (file.1, file.2.1))
           manifest := manifest
           markers := names.filter isMarker
           lockFiles := Package.lockFiles.filter names.contains
           unreadable := unreadable.mergeSort fun left right => !(right < left) }

end Survey

end ModuleAtlas
