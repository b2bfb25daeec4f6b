import ModuleAtlas.Ignore.Glob
import ModuleAtlas.Path
import ModuleAtlas.Text.Utf8

/-!
# Rules about paths

Rules that leave paths out. Of all the rules that match a path the last one decides.
-/

namespace ModuleAtlas.Ignore

structure Rule where
  pattern : String
  directoryOnly : Bool
  anchored : Bool
  negated : Bool
  hasSlash : Bool
  deriving DecidableEq, Repr

namespace Rule

/-- Whether the rule is about a path. A pattern with a slash is compared with the whole path, any
other with each component. -/
def covers (rule : Rule) (path : String) (isDirectory : Bool) : Bool :=
  if rule.pattern == "" then false
  else if rule.directoryOnly && !isDirectory then false
  else if rule.anchored || rule.hasSlash then
    Glob.matchesText rule.pattern path
      || (rule.directoryOnly && Text.beginsWith path (rule.pattern ++ "/"))
  else (Path.pieces path).any (Glob.matchesText rule.pattern)

/-- The text without a slash at its end, and whether there was one. -/
def cutEnd (characters : List Char) : List Char × Bool :=
  if characters.getLast? = some '/' then (characters.dropLast, true) else (characters, false)

/-- The text without a slash at its start, and whether there was one. -/
def cutStart : List Char → List Char × Bool
  | '/' :: rest => (rest, true)
  | characters => (characters, false)

/-- The rule that a pattern means; a blank pattern means none. -/
def ofPattern? (pattern : String) (negated : Bool) : Option Rule :=
  let trimmed := Text.trimList pattern.toList
  if trimmed.isEmpty then none
  else
    let (shorter, directoryOnly) := cutEnd trimmed
    let (bare, anchored) := cutStart shorter
    some ⟨String.ofList bare, directoryOnly, anchored, negated, bare.contains '/'⟩

/-- The rule of one line: blank lines and comments have none, an exclamation mark takes paths back
in. -/
def ofLine? (line : String) : Option Rule :=
  match Text.trimList line.toList with
  | [] => none
  | '#' :: _ => none
  | '!' :: rest => ofPattern? (String.ofList rest) true
  | characters => ofPattern? (String.ofList characters) false

def ofText (text : String) : List Rule :=
  (Text.lines text).filterMap ofLine?

/-- The rules of a file's octets; octets that are no text hold none. -/
def ofOctets (octets : List UInt8) : List Rule :=
  match Text.Utf8.decode octets with
  | .ok text => ofText text
  | .error _ => []

def ofPatterns (patterns : List String) : List Rule :=
  patterns.filterMap fun pattern => ofPattern? pattern false

end Rule

/-- Whether rules leave a path out: the last one that covers it decides. -/
def excludes (rules : List Rule) (path : String) (isDirectory : Bool) : Bool :=
  rules.foldl
    (fun excluded rule => if rule.covers path isDirectory then !rule.negated else excluded) false

end ModuleAtlas.Ignore
