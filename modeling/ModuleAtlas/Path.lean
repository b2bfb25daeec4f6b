import ModuleAtlas.Text.Blank

/-!
# Paths

Paths with slashes between their components. A path is a text; the functions here take it apart and
put it together by rule alone, without looking at any directory.
-/

namespace ModuleAtlas.Path

/-- The path with slashes in place of backslashes. -/
def slashed (path : String) : String :=
  Text.replaceChar '\\' '/' path

def pieces (path : String) : List String :=
  Text.split '/' path

/-- The components of a path: its pieces, without the empty ones and those that stay where they
are. -/
def components (path : String) : List String :=
  (pieces path).filter fun piece => piece != "" && piece != "."

def ofComponents (components : List String) : String :=
  String.intercalate "/" components

def isAbsolute (path : String) : Bool :=
  Text.beginsWith path "/"

/-- What stands behind the last slash. -/
def fileName (path : String) : String :=
  ((pieces path).getLast?).getD ""

/-- The last component; empty when there is none. -/
def lastComponent (path : String) : String :=
  ((components path).getLast?).getD ""

/-- What stands before the last slash. Slashes at its end are dropped, unless it has nothing else. -/
def directory (path : String) : String :=
  let head := (path.toList.reverse.dropWhile (· != '/')).reverse
  let bare := Text.dropEndWhile (· == '/') head
  String.ofList (if bare.isEmpty then head else bare)

/-- The part of a name from its last point on; a point that only points precede begins none. -/
def nameExtension (name : List Char) : List Char :=
  let visible := name.dropWhile (· == '.')
  if visible.contains '.' then '.' :: (visible.reverse.takeWhile (· != '.')).reverse else []

/-- The extension of the file that a path names, with its point; empty when there is none. -/
def extension (path : String) : String :=
  String.ofList (nameExtension (fileName path).toList)

/-- The second path as seen from the first. -/
def join (base path : String) : String :=
  if isAbsolute path then path
  else if base == "" || Text.endsWith base "/" then base ++ path
  else base ++ "/" ++ path

/-- Takes one more component: a step up undoes the step before it, and above the root it leads
nowhere. The components so far are in reverse. -/
def step (absolute : Bool) (taken : List String) (component : String) : List String :=
  if component = ".." then
    match taken with
    | [] => if absolute then [] else [component]
    | last :: before => if last = ".." then component :: taken else before
  else component :: taken

/-- The components with steps up carried out as far as they can be. -/
def collapse (absolute : Bool) (components : List String) : List String :=
  (components.foldl (step absolute) []).reverse

/-- The slashes that a path begins with: exactly two are kept, more count as one. -/
def rootMark (path : String) : String :=
  let slashes := (path.toList.takeWhile (· == '/')).length
  if slashes = 0 then "" else if slashes = 2 then "//" else "/"

/-- The path without empty components, steps that stay and steps up that undo others. -/
def normalize (path : String) : String :=
  let kept := collapse (isAbsolute path) (components path)
  let text := rootMark path ++ ofComponents kept
  if text == "" then "." else text

/-- The path without empty components and steps that stay; steps up are kept. -/
def plain (path : String) : String :=
  let text := rootMark path ++ ofComponents (components path)
  if text == "" then "." else text

end ModuleAtlas.Path
