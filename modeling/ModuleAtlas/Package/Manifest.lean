import ModuleAtlas.Disk.Item
import ModuleAtlas.Json.Printer
import ModuleAtlas.Json.Reader
import ModuleAtlas.Text.Utf8

/-!
# The manifest of a package

The manifest of a package: what it is called, what it depends on and which scripts it has.
-/

namespace ModuleAtlas

/-- A package manifest. Mappings keep the order of their first keys. -/
structure Manifest where
  name : Option RawText := none
  version : Option RawText := none
  dependencies : List (RawText × RawText) := []
  devDependencies : List (RawText × RawText) := []
  scripts : List (RawText × RawText) := []
  deriving DecidableEq, Repr

namespace Manifest

def fileName : String := "package.json"

/-- A mapping of names to texts in a document; values of other types are turned into text. -/
def mapping (fields : List (RawText × Json)) (key : RawText) : List (RawText × RawText) :=
  match fields.lookup key with
  | some (.object entries) => entries.map fun entry => (entry.1, entry.2.plain)
  | _ => []

def textOf (fields : List (RawText × Json)) (key : RawText) : Option RawText :=
  (fields.lookup key).bind Json.string?

def ofFields (fields : List (RawText × Json)) : Manifest :=
  { name := textOf fields "name"
    version := textOf fields "version"
    dependencies := mapping fields "dependencies"
    devDependencies := mapping fields "devDependencies"
    scripts := mapping fields "scripts" }

/-- All dependencies; those for development win. -/
def allDependencies (manifest : Manifest) : List (RawText × RawText) :=
  manifest.devDependencies.foldl (fun known entry => Json.putField known entry.1 entry.2)
    manifest.dependencies

def hasScript (manifest : Option Manifest) (name : String) : Bool :=
  match manifest with
  | none => false
  | some manifest => manifest.scripts.any fun script => script.1 == name

def dependenciesOf (manifest : Option Manifest) : List (RawText × RawText) :=
  match manifest with
  | none => []
  | some manifest => manifest.allDependencies

/-- The fields of the manifest that is read from octets; none when they are no document with fields.
A document that the reader gives up on is a fault. -/
def fieldsOfOctets (octets : List UInt8) : Except Json.Fault (List (RawText × Json)) :=
  match Text.Utf8.decode octets with
  | .error _ => .ok []
  | .ok text =>
    match Json.read text with
    | .ok (.object fields) => .ok fields
    | .ok _ => .ok []
    | .error (.grammar _ _) => .ok []
    | .error fault => .error fault

inductive Fault where
  | trouble (trouble : Disk.Trouble)
  /-- The reader gives up on the document. -/
  | document (fault : Json.Fault)
  deriving DecidableEq, Repr

def Fault.message : Fault → String
  | .trouble cause => cause.message
  | .document fault => fault.message ""

/-- The fields of the manifest of the project at an absolute path. A file that is there but cannot be
read has none. -/
def fieldsAt (disk : Disk.Item) (project : String) : Except Fault (List (RawText × Json)) := do
  let file := Path.join project fileName
  if !(← (Disk.exists? disk file).mapError .trouble) then return []
  match Disk.read disk file with
  | .ok octets => (fieldsOfOctets octets).mapError .document
  | .error _ => return []

/-- The manifest of the project at an absolute path, if it has one with anything in it. -/
def load (disk : Disk.Item) (project : String) : Except Fault (Option Manifest) := do
  let fields ← fieldsAt disk project
  return if fields.isEmpty then none else some (ofFields fields)

end Manifest

end ModuleAtlas
