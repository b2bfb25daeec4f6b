import ModuleAtlas.Disk.Item

/-!
# Resolution of imports

From the text of an import to the file that it means. Only relative imports are resolved, and a miss
is an ordinary answer.
-/

namespace ModuleAtlas.Resolution

/-- The extensions that may be left out of an import, in the order in which they are tried. -/
def extensions : List String := [".js", ".jsx", ".ts", ".tsx", ".json"]

def isRelative (source : String) : Bool :=
  Text.beginsWith source "."

/-- The path that a relative import spells, as seen from the root of the project. -/
def target (source importer : String) : String :=
  Path.normalize (Path.join (Path.directory (Path.slashed importer)) (Path.slashed source))

/-- Whether a path leads out of the project by steps up. -/
def climbs (path : String) : Bool :=
  path == ".." || Text.beginsWith path "../"

/-- The files that a path may mean, in the order of preference: itself, if its extension is one of
those known, then with an extension added, then the index of a directory. -/
def candidates (path : String) : List String :=
  let base := if path == "." then "" else path
  let exact := if extensions.contains (Path.extension base) then [base] else []
  let extended := extensions.map (base ++ ·)
  let indices := extensions.map fun extension => Path.join base ("index" ++ extension)
  if base == "" then indices else exact ++ extended ++ indices

def firstFile {ε : Type} (isFile : String → Except ε Bool) : List String → Except ε (Option String)
  | [] => .ok none
  | candidate :: rest =>
    match isFile candidate with
    | .error fault => .error fault
    | .ok true => .ok (some candidate)
    | .ok false => firstFile isFile rest

def resolve {ε : Type} (isFile : String → Except ε Bool) (source importer : String) :
    Except ε (Option String) :=
  if !isRelative source then .ok none
  else
    let path := target source importer
    if climbs path then .ok none else firstFile isFile (candidates path)

/-- Whether a path of a project leads to a file, for a project at an absolute path. -/
def isFileUnder (disk : Disk.Item) (project path : String) : Except Disk.Trouble Bool :=
  let full := if Path.isAbsolute path then path else Path.join project path
  Disk.isFile disk full

end ModuleAtlas.Resolution
