import ModuleAtlas.Disk.Item
import ModuleAtlas.Ignore.Rule
import ModuleAtlas.Script.Parse
import ModuleAtlas.Text.LetterCase

/-!
# The search for sources

The search for source files under a directory. Directories are entered in the order of their names,
each one after the files beside it; links to directories are not entered.
-/

namespace ModuleAtlas.Survey

structure Source where
  /-- The path as seen from the directory that is searched. -/
  path : String
  /-- The absolute path. -/
  location : String
  /-- The extension in small letters. -/
  extension : String
  deriving DecidableEq, Repr

/-- What the search comes upon. -/
inductive Finding where
  | source (file : Source)
  | unreadable (directory : String)
  deriving DecidableEq, Repr

def Finding.source? : Finding → Option Source
  | .source file => some file
  | .unreadable _ => none

def Finding.unreadable? : Finding → Option String
  | .source _ => none
  | .unreadable directory => some directory

/-- The names of directories that are never entered. -/
def skippedDirectories : List String :=
  ["node_modules", ".git", "build", "dist", ".next", "coverage"]

/-- What guides a search. -/
structure Guide where
  /-- The absolute path of the directory that is searched. -/
  root : String
  rules : List Ignore.Rule
  /-- Whether an absolute path leads to a directory. -/
  leadsToDirectory : String → Bool

/-- The path of an entry of a directory. The directory that is searched has an empty path. -/
def entryPath (directory name : String) : String :=
  if directory == "" then name else s!"{directory}/{name}"

def Guide.enters (guide : Guide) (path name : String) : Bool :=
  !skippedDirectories.contains name && !Ignore.excludes guide.rules path true

/-- The source that a file is, if it is one and no rule leaves it out. -/
def Guide.source? (guide : Guide) (path name : String) : Option Source :=
  let extension := Text.lower (Path.extension name)
  if Script.extensions.contains extension && !Ignore.excludes guide.rules path false then
    some ⟨path, Path.join guide.root path, extension⟩
  else none

/-- Whether an entry is a directory, which a link may be too. -/
def Guide.isDirectory (guide : Guide) (path : String) : Disk.Item → Bool
  | .directory _ _ _ => true
  | .file _ _ => false
  | .link _ => guide.leadsToDirectory (Path.join guide.root path)

/-- What one entry of a directory contributes. -/
structure Branch where
  name : String
  isDirectory : Bool
  findings : List Finding

def sortBranches (branches : List Branch) : List Branch :=
  branches.mergeSort fun left right => !(right.name < left.name)

/-- The findings of branches: those of files first, and among equals by name. -/
def gather (branches : List Branch) : List Finding :=
  let files := branches.filter fun branch => !branch.isDirectory
  let directories := branches.filter (·.isDirectory)
  (sortBranches files ++ sortBranches directories).flatMap (·.findings)

mutual

/-- What the search comes upon in an item with the given path. A directory that tells its entries but
is not `reachable` itself cannot be read either. -/
def findings (guide : Guide) (reachable : Bool) (path : String) : Disk.Item → List Finding
  | .directory listable enterable entries =>
    if reachable && listable then gather (branches guide enterable path entries)
    else [.unreadable (if path == "" then "." else path)]
  | .file _ _ => []
  | .link _ => []

/-- What the entries of a directory with the given path contribute. -/
def branches (guide : Guide) (enterable : Bool) (path : String) :
    List (String × Disk.Item) → List Branch
  | [] => []
  | (name, item) :: rest =>
    let below := entryPath path name
    let branch : Branch :=
      if guide.isDirectory below item then
        ⟨name, true, if guide.enters below name then findings guide enterable below item else []⟩
      else ⟨name, false, ((guide.source? below name).map Finding.source).toList⟩
    branch :: branches guide enterable path rest

end

def search (disk : Disk.Item) (root : String) (rules : List Ignore.Rule) : List Finding :=
  let guide : Guide :=
    { root := root
      rules := rules
      leadsToDirectory := fun path => ((Disk.isDirectory disk path).toOption).getD false }
  match Disk.find disk root with
  | .ok item => findings guide true "" item
  | .error _ => []

end ModuleAtlas.Survey
