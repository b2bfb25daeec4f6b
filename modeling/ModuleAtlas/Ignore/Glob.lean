/-!
# Patterns of names

Patterns of names: a star stands for any run of characters, a question mark for any one character,
and brackets for one of a set of characters. Slashes are characters like any others.
-/

namespace ModuleAtlas.Glob

/-- One element of a pattern. -/
inductive Wild where
  | run
  | any
  | never
  | one (character : Char)
  | among (negated : Bool) (ranges : List (Char × Char))
  deriving DecidableEq, Repr

/-- Whether an element other than a run accepts a character. -/
def Wild.accepts (character : Char) : Wild → Bool
  | .run => true
  | .any => true
  | .never => false
  | .one expected => character == expected
  | .among negated ranges =>
    (ranges.any fun range => range.1 ≤ character && character ≤ range.2) != negated

/-! ## Sets in brackets -/

/-- The index of the first hyphen from a given index on. -/
def hyphenFrom (start : Nat) (characters : List Char) : Option Nat :=
  (characters.drop start).findIdx? (· == '-') |>.map (· + start)

/-- The stretches between the hyphens that make ranges. The first hyphen that can make one is at
`start`; behind each range two characters belong to its end and to the next start. -/
def stretches : Nat → Nat → List Char → List (List Char)
  | 0, _, characters => [characters]
  | fuel + 1, start, characters =>
    match hyphenFrom start characters with
    | none => [characters]
    | some index =>
      let before := characters.take index
      match characters.drop (index + 1) with
      | [] => [before ++ ['-']]
      | rest => before :: stretches fuel 2 rest

/-- The stretches with those joined whose range would be empty. -/
def joinEmpty : List (List Char) → List (List Char)
  | [] => []
  | first :: rest =>
    match joinEmpty rest with
    | [] => [first]
    | next :: others =>
      match first.getLast?, next.head? with
      | some last, some head =>
        if head < last then (first.dropLast ++ next.tail) :: others else first :: next :: others
      | _, _ => first :: next :: others

/-- The characters of a set, with `none` for a hyphen that makes a range. -/
def marked : List (List Char) → List (Option Char)
  | [] => []
  | [last] => last.map some
  | first :: rest => first.map some ++ none :: marked rest

/-- The ranges of a set. A mark that has nothing on one side is a plain hyphen. -/
def ranges : List (Option Char) → List (Char × Char)
  | first :: none :: last :: rest => (first.getD '-', last.getD '-') :: ranges rest
  | first :: rest => (first.getD '-', first.getD '-') :: ranges rest
  | [] => []

def bracketed (body : List Char) : Wild :=
  let start := if body.head? = some '!' then 2 else 1
  match marked (joinEmpty (stretches body.length start body)) with
  | [] => .never
  | [some '!'] => .any
  | some '!' :: rest => .among true (ranges rest)
  | characters => .among false (ranges characters)

/-- The number of characters between an opening bracket and its closing one. A closing bracket right
at the start, or behind the mark of negation, is an ordinary character. -/
def bodyLength? (characters : List Char) : Option Nat :=
  let negation := if characters.head? = some '!' then 1 else 0
  let first := if (characters.drop negation).head? = some ']' then 1 else 0
  let skipped := negation + first
  (characters.drop skipped).findIdx? (· == ']') |>.map (· + skipped)

/-- The elements of a pattern, read with at most `fuel` steps. -/
def elements : Nat → List Char → List Wild
  | 0, _ => []
  | _, [] => []
  | fuel + 1, character :: rest =>
    if character = '*' then .run :: elements fuel rest
    else if character = '?' then .any :: elements fuel rest
    else if character = '[' then
      match bodyLength? rest with
      | none => .one '[' :: elements fuel rest
      | some length => bracketed (rest.take length) :: elements fuel (rest.drop (length + 1))
    else .one character :: elements fuel rest

def parse (pattern : String) : List Wild :=
  elements pattern.length pattern.toList

def accepts : List Wild → List Char → Bool
  | [], characters => characters.isEmpty
  | .run :: elements, [] => accepts elements []
  | .run :: elements, character :: rest =>
    accepts elements (character :: rest) || accepts (.run :: elements) rest
  | _ :: _, [] => false
  | element :: elements, character :: rest => element.accepts character && accepts elements rest
termination_by elements characters => elements.length + characters.length

def matchesText (pattern text : String) : Bool :=
  accepts (parse pattern) text.toList

end ModuleAtlas.Glob
