import ModuleAtlas.Disk.Item

/-!
# Paths without links

The path of an item without links. A path that leads nowhere is followed as far as it goes, and the
rest is taken as it is.
-/

namespace ModuleAtlas.Disk

inductive Lost where
  /-- Links lead in a circle. -/
  | loop (path : String)
  /-- The path holds a character that no path may hold. -/
  | nullCharacter
  /-- The path begins at the home of somebody unknown. -/
  | unknownHome
  deriving DecidableEq, Repr

def Lost.message : Lost → String
  | .loop path => s!"Symlink loop from {Text.Quoted.quote path}"
  | .nullCharacter => "embedded null byte"
  | .unknownHome => "Could not determine home directory."

/-- Follows the pieces of a path from a place without links. `follow` carries on at a link that is not
being followed already; the truth value tells whether all links could be followed. -/
def realWith (root : Item)
    (follow : List (List String) → List String → List String → List String × Bool)
    (pending : List (List String)) : List String → List String → List String × Bool
  | place, [] => (place, true)
  | place, piece :: rest =>
    if piece == "" || piece == "." then realWith root follow pending place rest
    else if piece == ".." then realWith root follow pending place.dropLast rest
    else
      let further := place ++ [piece]
      match root.at? further with
      | some (.link target) =>
        if pending.contains further then (further ++ rest, false)
        else
          let start := if Path.isAbsolute target then [] else place
          match follow (further :: pending) start (Path.pieces target) with
          | (found, true) => realWith root follow pending found rest
          | (found, false) => (found ++ rest, false)
      | _ => realWith root follow pending further rest

/-- Follows the pieces of a path, with links nested to a given depth. -/
def realFrom (root : Item) : Nat → List (List String) → List String → List String →
    List String × Bool
  | 0 => fun pending => realWith root (fun _ place pieces => (place ++ pieces, false)) pending
  | depth + 1 => fun pending => realWith root (realFrom root depth) pending

/-- The deepest nesting of links that is followed. -/
def deepestLinks : Nat := 200

def absolute (components : List String) : String :=
  "/" ++ Path.ofComponents components

/-- The path of an item without links. -/
def realPath (root : Item) (path : String) : Except Lost String :=
  if path.toList.contains '\x00' then .error .nullCharacter
  else
    let (place, _) := realFrom root deepestLinks [] [] (Path.pieces path)
    let components := place.filter fun piece => piece != "" && piece != "."
    let found := absolute (Path.collapse true components)
    match find root found with
    | .error .tooManyLinks => .error (.loop found)
    | _ => .ok found

/-- The path with the home of the user in place of a tilde at its start. -/
def expandHome (home path : String) : Except Lost String :=
  match Path.pieces path with
  | "~" :: rest => .ok (Path.ofComponents (home :: rest))
  | first :: _ => if Text.beginsWith first "~" then .error .unknownHome else .ok path
  | [] => .ok path

end ModuleAtlas.Disk
