import ModuleAtlas.CommandLine.Program
import Std.Time.Format

/-!
# The program

The program. It takes in the part of the disk that a call speaks of, lets the call run on it and
leaves behind what the call leaves. Nothing here talks over the net: a model counts as unreachable,
and the service has nobody to listen for it.
-/

namespace ModuleAtlas.CommandLine

/-! ## Taking in the disk -/

/-- How deep directories are read. -/
def deepestDirectory : Nat := Disk.longestPath / 2

/-- Whether what a file holds matters, by its name. -/
def mattersByName (name : String) : Bool :=
  [Manifest.fileName, Settings.fileName, Survey.ignoreFileName].contains name
    || Script.extensions.contains (Text.lower (Path.extension name))

/-- The file at a path, with its octets if they are wished. -/
def fileAt (wished : Bool) (path : String) : IO Disk.Item := do
  if !wished then return .file true []
  try
    return .file true (← IO.FS.readBinFile path).toList
  catch _ => return .file false []

/-- Whether names can be looked up in the directory at a path. -/
def canEnter (path : String) : IO Bool := do
  try
    let _ ← (System.mkFilePath [path, "."]).metadata
    return true
  catch _ => return false

/-- The path without links that a path leads to, if it leads anywhere. -/
def realPath? (path : String) : IO (Option String) := do
  try
    return some (← IO.FS.realPath path).toString
  catch _ => return none

/-- Takes in what stands at a path. Directories that are never searched give their names only, and
a link to a directory stays a link. -/
def takeIn : Nat → Bool → String → IO Disk.Item
  | 0, _, _ => return .directory false true []
  | depth + 1, searched, path => do
    let place := System.mkFilePath [path]
    if !(← place.isDir) then
      return ← fileAt (searched && mattersByName (Path.lastComponent path)) path
    let enterable ← canEnter path
    try
      let mut entries : List (String × Disk.Item) := []
      for entry in ← place.readDir do
        let below := Path.join path entry.fileName
        -- Without the right to enter the directory, nothing but the name can be had.
        let item ← if enterable then takeInEntry depth searched below else pure (.file false [])
        entries := (entry.fileName, item) :: entries
      return .directory true enterable entries
    catch _ => return .directory false enterable []
where
  /-- Takes in an entry of a directory. -/
  takeInEntry (depth : Nat) (searched : Bool) (path : String) : IO Disk.Item := do
    let place := System.mkFilePath [path]
    let isLink := (← place.symlinkMetadata).type == .symlink
    match isLink, ← if isLink then realPath? path else pure none with
    | false, _ =>
      takeIn depth (searched && !Survey.skippedDirectories.contains (Path.lastComponent path)) path
    | true, none => return .link path
    | true, some target => if ← place.isDir then return .link target else takeIn depth searched path

/-- The item at a path as far as writing to it minds: a directory, a file, or nothing. -/
def glimpse (path : String) : IO (Option Disk.Item) := do
  let place := System.mkFilePath [path]
  if ← place.isDir then return some (.directory true true [])
  else if ← place.pathExists then return some (.file true [])
  else return none

/-- Puts a glimpse of a path on a disk that knows nothing of it. -/
def addGlimpse (disk : Disk.Item) (path : String) : IO Disk.Item := do
  let place := Path.components path
  match disk.at? place, ← glimpse path with
  | none, some item => return Disk.Item.put item place disk
  | _, _ => return disk

/-- Puts a glimpse of a file to be written on a disk, and of the directory that it stands in. -/
def addTarget (disk : Disk.Item) (path : String) : IO Disk.Item := do
  addGlimpse (← addGlimpse disk (Path.directory path)) path

/-! ## The call -/

/-- The variables that a call may look at. -/
def readEnvironment : IO (List (String × String)) := do
  let names := Model.variablePrefixes.flatMap fun start =>
    ["MODEL", "BASE_URL", "API_KEY"].map fun ending => start ++ ending
  names.filterMapM fun name => return (← IO.getEnv name).map fun value => (name, value)

/-- The path of the project that a task is about. -/
def Task.project? : Task → Option String
  | .analyze path _ _ _ _ => some path
  | .insights path => some path
  | .serve _ _ => none

def Task.about (project : String) : Task → Task
  | .analyze _ json output enriched timeout => .analyze project json output enriched timeout
  | .insights _ => .insights project
  | .serve host port => .serve host port

def Task.output? : Task → Option String
  | .analyze _ _ output _ _ => output
  | _ => none

/-- The surroundings with the project at a path taken in, and the task about it. -/
def takeInProject (around : Surroundings) (task : Task) : IO (Surroundings × Task) := do
  match task.project? with
  | none => return (around, task)
  | some path =>
    match around.expand path with
    | .error _ => return (around, task)
    | .ok expanded =>
      match ← realPath? (around.locate expanded) with
      | none => return (around, task)
      | some real =>
        let item ← takeIn deepestDirectory true real
        let disk := Disk.Item.put item (Path.components real) around.disk
        return ({ around with disk := disk }, task.about real)

def octetsOn (disk : Disk.Item) (path : String) : List UInt8 :=
  (Disk.read disk path).toOption.getD []

/-- Lets a call run on the disk, and leaves behind the files that it writes. -/
def carryOut (invocation : Invocation) : IO Effects := do
  let bare : Surroundings :=
    { disk := .directory true true []
      home := (← IO.getEnv "HOME").getD "/"
      workingDirectory := (← IO.currentDir).toString
      environment := ← readEnvironment }
  let (around, task) ← takeInProject bare invocation.task
  let report := task.output?.map around.locate
  let notes := invocation.notesFile.map (Journal.notesPath around.workingDirectory)
  let here ← addGlimpse around.disk around.workingDirectory
  let disk ← (report.toList ++ notes.toList).foldlM addTarget here
  let now := Std.Time.DateTime.ofTimestamp (← Std.Time.Timestamp.now) .UTC
  let setting : Analysis.Setting :=
    { surroundings := { around with disk := disk }
      clock := now.format "uuuu-MM-dd'T'HH:mm:ss.SSSSSSxxx"
      exchange := fun _ => .unreachable "no connection" }
  let stamp : Journal.Stamp := ⟨now.format "uuuu-MM-dd HH:mm:ss,SSS", "ThreadPoolExecutor-0_0"⟩
  let effects := { invocation with task := task }.run setting stamp
  for path in notes do
    let added := (octetsOn effects.disk path).drop (octetsOn disk path).length
    if (Disk.isFile effects.disk path).toOption = some true then
      IO.FS.withFile path .append fun file => file.write added.toByteArray
  for path in report do
    let octets := octetsOn effects.disk path
    if octets ≠ octetsOn disk path then IO.FS.writeBinFile path octets.toByteArray
  return effects

/-- Tells how a call ended, and gives the status of the program. -/
def conclude : Ending → IO UInt32
  | .status code => return code.toUInt32
  | .trouble trouble => complain trouble.message
  | .breakdown cause => complain cause.message
  | .lost fault => complain fault.message
  | .nesting => complain "maximum recursion depth exceeded"
  | .brokenText => complain "surrogates not allowed"
where
  /-- Tells what is wrong. -/
  complain (message : String) : IO UInt32 := do
    IO.eprintln message
    return 1

end ModuleAtlas.CommandLine

open ModuleAtlas.CommandLine in
def main (arguments : List String) : IO UInt32 := do
  match read arguments with
  | .error (.explained text) =>
    IO.print text
    return 0
  | .error (.refused text) =>
    IO.eprint text
    return 2
  | .ok invocation =>
    let effects ← carryOut invocation
    IO.print effects.output
    IO.eprint effects.errors
    match effects.served with
    | some (host, port) =>
      IO.eprintln s!"Nobody listens at {host}:{port}: there is no connection to the net."
      return 1
    | none => conclude effects.ending
