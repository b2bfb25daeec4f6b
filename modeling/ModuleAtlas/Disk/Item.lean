import ModuleAtlas.Path
import ModuleAtlas.Text.Quoted

/-!
# Directories, files and links

Directories, files and links as a value. A path is looked up from the root of all directories; links
are followed, but not without end.
-/

namespace ModuleAtlas.Disk

/-- What a name in a directory stands for. A directory that is not `listable` does not tell its
entries; in one that is not `enterable` no name can be looked up. -/
inductive Item where
  | file (readable : Bool) (octets : List UInt8)
  | directory (listable enterable : Bool) (entries : List (String × Item))
  | link (target : String)
  deriving Inhabited, Repr

/-- Why a path leads nowhere. -/
inductive Fault where
  | absent
  | denied
  | notDirectory
  | isDirectory
  | nameTooLong
  | tooManyLinks
  deriving DecidableEq, Repr

namespace Fault

def number : Fault → Nat
  | .absent => 2
  | .denied => 13
  | .notDirectory => 20
  | .isDirectory => 21
  | .nameTooLong => 36
  | .tooManyLinks => 40

def text : Fault → String
  | .absent => "No such file or directory"
  | .denied => "Permission denied"
  | .notDirectory => "Not a directory"
  | .isDirectory => "Is a directory"
  | .nameTooLong => "File name too long"
  | .tooManyLinks => "Too many levels of symbolic links"

end Fault

structure Trouble where
  fault : Fault
  path : String
  deriving DecidableEq, Repr

def Trouble.message (trouble : Trouble) : String :=
  s!"[Errno {trouble.fault.number}] {trouble.fault.text}: {Text.Quoted.quote trouble.path}"

namespace Item

/-- The entry with the given name, if it can be looked up. -/
def entry? (name : String) : Item → Option Item
  | .directory _ true entries => entries.lookup name
  | _ => none

/-- The item at the end of a chain of names that can be looked up, none of which is a link. -/
def at? (root : Item) : List String → Option Item
  | [] => some root
  | name :: rest =>
    match root.entry? name with
    | none => none
    | some item => at? item rest

def isDirectory : Item → Bool
  | .directory _ _ _ => true
  | _ => false

/-- Whether the item is a directory in which names can be looked up. -/
def isEnterable : Item → Bool
  | .directory _ enterable _ => enterable
  | _ => false

def isFile : Item → Bool
  | .file _ _ => true
  | _ => false

end Item

/-- The longest name of an entry, in octets. -/
def longestName : Nat := 255

/-- The longest path, in octets. -/
def longestPath : Nat := 4095

/-- The most links on the way to an item. -/
def mostLinks : Nat := 40

/-- Follows the pieces of a path from a place that holds no link. `follow` carries on behind a
link. -/
def walkWith (root : Item) (follow : List String → List String → Except Fault (List String)) :
    List String → List String → Except Fault (List String)
  | place, [] => .ok place
  | place, piece :: rest =>
    match root.at? place with
    | none => .error .absent
    | some item =>
      if !item.isDirectory then .error .notDirectory
      else if piece != "" && !item.isEnterable then .error .denied
      else if piece == "" || piece == "." then walkWith root follow place rest
      else if piece == ".." then walkWith root follow place.dropLast rest
      else if piece.utf8ByteSize > longestName then .error .nameTooLong
      else
        match item.entry? piece with
        | none => .error .absent
        | some (.link target) =>
          follow (if Path.isAbsolute target then [] else place) (Path.pieces target ++ rest)
        | some _ => walkWith root follow (place ++ [piece]) rest

/-- Follows the pieces of a path, with at most the given number of links. -/
def walk (root : Item) : Nat → List String → List String → Except Fault (List String)
  | 0 => walkWith root fun _ _ => .error .tooManyLinks
  | links + 1 => walkWith root (walk root links)

def locate (root : Item) (path : String) : Except Fault (List String) :=
  if path.utf8ByteSize > longestPath then .error .nameTooLong
  else walk root mostLinks [] (Path.pieces path)

def find (root : Item) (path : String) : Except Fault Item :=
  match locate root path with
  | .error fault => .error fault
  | .ok place =>
    match root.at? place with
    | none => .error .absent
    | some item => .ok item

/-- Whether a path leads to an item with a property. A path that leads nowhere has none; there is
trouble where it is too long, or a directory on its way cannot be entered. -/
def holds (root : Item) (property : Item → Bool) (path : String) : Except Trouble Bool :=
  if path.toList.contains '\x00' then .ok false
  else
    match find root path with
    | .ok item => .ok (property item)
    | .error .nameTooLong => .error ⟨.nameTooLong, path⟩
    | .error .denied => .error ⟨.denied, path⟩
    | .error _ => .ok false

def exists? (root : Item) (path : String) : Except Trouble Bool :=
  holds root (fun _ => true) path

def isFile (root : Item) (path : String) : Except Trouble Bool :=
  holds root Item.isFile path

def isDirectory (root : Item) (path : String) : Except Trouble Bool :=
  holds root Item.isDirectory path

def read (root : Item) (path : String) : Except Trouble (List UInt8) :=
  match find root path with
  | .ok (.file true octets) => .ok octets
  | .ok (.directory true _ _) => .error ⟨.isDirectory, path⟩
  | .ok _ => .error ⟨.denied, path⟩
  | .error fault => .error ⟨fault, path⟩

/-! ## Changes -/

def putEntry (entries : List (String × Item)) (name : String) (item : Item) :
    List (String × Item) :=
  match entries with
  | [] => [(name, item)]
  | (known, old) :: rest =>
    if known = name then (name, item) :: rest else (known, old) :: putEntry rest name item

/-- Puts an item at the end of a chain of names, making the directories on the way. -/
def Item.put (item : Item) : List String → Item → Item
  | [], _ => item
  | name :: rest, .directory listable enterable entries =>
    let below := (entries.lookup name).getD (.directory true true [])
    .directory listable enterable (putEntry entries name (Item.put item rest below))
  | _ :: _, other => other

/-- Writes a file. Links at its path are followed. -/
def write (root : Item) (path : String) (octets : List UInt8) : Except Trouble Item :=
  match find root path with
  | .ok (.directory _ _ _) => .error ⟨.isDirectory, path⟩
  | .ok _ =>
    match locate root path with
    | .ok place => .ok (Item.put (.file true octets) place root)
    | .error fault => .error ⟨fault, path⟩
  | .error .absent =>
    let components := Path.components path
    match walk root mostLinks [] components.dropLast with
    | .error fault => .error ⟨fault, path⟩
    | .ok place =>
      match root.at? place with
      | some (.directory _ _ _) =>
        .ok (Item.put (.file true octets) (place ++ components.getLast?.toList) root)
      | some _ => .error ⟨.notDirectory, path⟩
      | none => .error ⟨.absent, path⟩
  | .error fault => .error ⟨fault, path⟩

end ModuleAtlas.Disk
