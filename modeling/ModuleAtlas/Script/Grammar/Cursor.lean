/-!
# Places in a script

Places in a script and the tokens that begin at them. Every function here takes the characters that
are left and answers from them alone.
-/

namespace ModuleAtlas.Script

/-- The characters that are left, and the octet at which they begin. -/
structure Cursor where
  rest : List Char
  offset : Nat
  deriving Inhabited

namespace Cursor

def ofText (text : String) : Cursor :=
  ⟨text.toList, 0⟩

def advance (cursor : Cursor) : Nat → Cursor
  | 0 => cursor
  | count + 1 =>
    match cursor.rest with
    | [] => cursor
    | character :: rest => advance ⟨rest, cursor.offset + character.utf8Size⟩ count

def skipWhile (drop : Char → Bool) (rest : List Char) (offset : Nat) : Cursor :=
  match rest with
  | [] => ⟨[], offset⟩
  | character :: others =>
    if drop character then skipWhile drop others (offset + character.utf8Size)
    else ⟨character :: others, offset⟩

end Cursor

/-! ## Characters -/

def isSpace (character : Char) : Bool :=
  let point := character.toNat
  (9 ≤ point && point ≤ 13) || point == 0x20 || point == 0x85 || point == 0xA0 || point == 0x1680
    || (0x2000 ≤ point && point ≤ 0x200B) || point == 0x2028 || point == 0x2029 || point == 0x202F
    || point == 0x205F || point == 0x2060 || point == 0x3000 || point == 0xFEFF

/-- Blanks that the search for the end of a statement looks through: those that allow a line to be
broken at them. -/
def isBreakingSpace (character : Char) : Bool :=
  let point := character.toNat
  isSpace character && point != 0x85 && point != 0xA0 && point != 0x2007 && point != 0x200B
    && point != 0x202F && point != 0x2060 && point != 0xFEFF

/-- Characters that end a line, as far as statements are concerned. -/
def isNewLine (character : Char) : Bool :=
  character == '\n' || character == '\u2028' || character == '\u2029'

/-- Characters that end a comment of one line. -/
def endsLineComment (character : Char) : Bool :=
  isNewLine character || character == '\r'

def isDigit (character : Char) : Bool :=
  '0' ≤ character && character ≤ '9'

def isHexDigit (character : Char) : Bool :=
  isDigit character || ('a' ≤ character && character ≤ 'f') || ('A' ≤ character && character ≤ 'F')

/-- Punctuation, which cannot be part of a name. -/
def isPunctuation (character : Char) : Bool :=
  ":;\x60\"'@#.,|^&<=>+-*/\\%?!~()[]\x7b\x7d".toList.contains character

/-- Characters that names are made of, escapes aside. -/
def isNamePart (character : Char) : Bool :=
  0x20 ≤ character.toNat && !isSpace character && !isPunctuation character

def isLetter (character : Char) : Bool :=
  ('a' ≤ character && character ≤ 'z') || ('A' ≤ character && character ≤ 'Z')

/-! ## Names -/

/-- The number of characters of a braced escape behind its opening brace. -/
def bracedEscape? (characters : List Char) : Option Nat :=
  let digits := characters.takeWhile isHexDigit
  if !digits.isEmpty && (characters.drop digits.length).head? == some '\x7d' then
    some (digits.length + 1)
  else none

/-- The number of characters of a Unicode escape at the start of the list. -/
def unicodeEscape? (characters : List Char) : Option Nat :=
  match characters with
  | '\\' :: 'u' :: '\x7b' :: more => (bracedEscape? more).map (· + 3)
  | '\\' :: 'u' :: a :: b :: c :: d :: _ =>
    if isHexDigit a && isHexDigit b && isHexDigit c && isHexDigit d then some 6 else none
  | _ => none

/-- The number of characters of the name that goes on at the start of the list. -/
def nameRest : Nat → List Char → Nat
  | 0, _ => 0
  | fuel + 1, characters =>
    match characters with
    | [] => 0
    | character :: others =>
      if isNamePart character then nameRest fuel others + 1
      else
        match unicodeEscape? characters with
        | none => 0
        | some count => nameRest fuel (characters.drop count) + count

/-- Long enough for every name that is met. -/
def nameFuel : Nat := 1000000

/-- The number of characters of the name at the start of the list; nothing when none stands there. -/
def name? (characters : List Char) : Option Nat :=
  match characters with
  | [] => none
  | character :: _ =>
    if isDigit character then none
    else
      match nameRest nameFuel characters with
      | 0 => none
      | count => some count

/-! ## Gaps between tokens -/

/-- The cursor behind a comment in block form, from behind its opening mark; nothing when it never
ends. -/
def blockComment? : List Char → Nat → Option Cursor
  | [], _ => none
  | '*' :: '/' :: rest, offset => some ⟨rest, offset + 2⟩
  | character :: rest, offset => blockComment? rest (offset + character.utf8Size)

/-- The cursor behind the blanks and comments at the start. With `markup`, the marks of an embedded
document's comment open a comment of one line too. -/
def skipGap (markup : Bool) : Nat → Cursor → Cursor
  | 0, cursor => cursor
  | fuel + 1, cursor =>
    let start := Cursor.skipWhile isSpace cursor.rest cursor.offset
    let lineComment : Cursor :=
      Cursor.skipWhile (fun character => !endsLineComment character) start.rest start.offset
    match start.rest with
    | '/' :: '/' :: _ => skipGap markup fuel lineComment
    | '/' :: '*' :: more =>
      match blockComment? more (start.offset + 2) with
      | none => start
      | some behind => skipGap markup fuel behind
    | '<' :: '!' :: '-' :: '-' :: _ => if markup then skipGap markup fuel lineComment else start
    | '-' :: '-' :: '>' :: _ => if markup then skipGap markup fuel lineComment else start
    | _ => start

/-! ## Where a statement ends without a semicolon -/

inductive GapResult where
  | reject
  | accept
  | noNewLine

/-- Skips a comment in block form from behind its opening mark, and tells whether it breaks a line. -/
def skipBlock : List Char → Bool → List Char × Bool × Bool
  | [], broken => ([], broken, false)
  | '*' :: '/' :: rest, broken => (rest, broken, true)
  | character :: rest, broken => skipBlock rest (broken || isNewLine character)

/-- Looks through blanks and comments. Unless `thorough`, a comment in block form ends the search. -/
def throughGap (thorough : Bool) : Nat → Bool → List Char → GapResult × List Char
  | 0, _, characters => (.accept, characters)
  | fuel + 1, broken, characters =>
    match characters.dropWhile isBreakingSpace with
    | '/' :: '/' :: rest =>
      throughGap thorough fuel broken (rest.dropWhile fun character => !isNewLine character)
    | '/' :: '*' :: rest =>
      let (behind, nowBroken, closed) := skipBlock rest broken
      if closed && behind.head? != some '/' && !thorough then
        (if nowBroken then .accept else .noNewLine, behind)
      else throughGap thorough fuel nowBroken behind
    | '/' :: rest => (.reject, rest)
    | other => (.accept, other)

/-- Whether a new line may begin a statement with these characters: not when they go on with the
expression before them. -/
def beginsStatement (characters : List Char) : Bool :=
  match characters with
  | '.' :: next :: _ => isDigit next
  | ['.'] => false
  | '+' :: next => next.head? == some '+'
  | '-' :: next => next.head? == some '-'
  | '!' :: next => next.head? != some '='
  | 'i' :: 'n' :: next =>
    if (next.head?.map isLetter).getD false then
      if "stanceof".toList.isPrefixOf next then ((next.drop 8).head?.map isLetter).getD false
      else true
    else false
  | character :: _ => !"\x60,:;*%><=[(?^|&/".toList.contains character
  | [] => true

/-- Whether the statement ends right here. `afterOperand` says that an operator could follow; then a
comment by itself does not end the statement. -/
def endsOnce (afterOperand : Bool) (fuel : Nat) : Nat → List Char → Bool
  | 0, _ => false
  | steps + 1, characters =>
    let settle (characters : List Char) : Bool :=
      match characters with
      | [] => true
      | '\x7d' :: _ => true
      | character :: rest =>
        if isNewLine character then
          match throughGap true fuel false rest with
          | (.reject, _) => false
          | (_, next) => beginsStatement next
        else if isBreakingSpace character then endsOnce afterOperand fuel steps rest
        else false
    match characters with
    | '/' :: _ =>
      match throughGap false fuel false characters with
      | (.reject, _) => false
      | (.accept, next) =>
        if !afterOperand && next.head? != some ',' && next.head? != some '=' then true
        else settle next
      | (.noNewLine, next) => settle next
    | other => settle other

/-- Whether the statement ends here or behind comments that follow. -/
def endsStatement (afterOperand : Bool) (fuel : Nat) : Nat → List Char → Bool
  | 0, _ => false
  | steps + 1, characters =>
    if endsOnce afterOperand fuel fuel characters then true
    else
      match characters.dropWhile isSpace with
      | '/' :: '/' :: rest =>
        endsStatement afterOperand fuel steps
          (rest.dropWhile fun character => !endsLineComment character)
      | '/' :: '*' :: rest =>
        let (behind, _, closed) := skipBlock rest false
        if closed then endsStatement afterOperand fuel steps behind else false
      | _ => false

/-! ## Literals -/

/-- The number of digits, with single underscores between them, at the start of the list. -/
def digitRun (isValid : Char → Bool) : Nat → List Char → Nat
  | 0, _ => 0
  | fuel + 1, characters =>
    match characters with
    | '_' :: digit :: rest => if isValid digit then digitRun isValid fuel rest + 2 else 0
    | digit :: rest => if isValid digit then digitRun isValid fuel rest + 1 else 0
    | [] => 0

def digits (isValid : Char → Bool) (characters : List Char) : Nat :=
  match characters with
  | [] => 0
  | first :: _ => if isValid first then digitRun isValid nameFuel characters else 0

/-- The number of characters of the exponent at the start of the list. -/
def exponentPart (characters : List Char) : Nat :=
  match characters with
  | mark :: more =>
    if mark == 'e' || mark == 'E' then
      let signed := more.head? == some '+' || more.head? == some '-'
      let count := digits isDigit (if signed then more.drop 1 else more)
      if count = 0 then 0 else count + (if signed then 2 else 1)
    else 0
  | [] => 0

/-- The number of characters of a whole part that a point or an exponent may follow: zero alone, or
digits of which the first or the second is not zero. -/
def wholePart (characters : List Char) : Nat :=
  match characters with
  | '0' :: second :: _ =>
    if '1' ≤ second && second ≤ '9' then digits isDigit characters else 1
  | '0' :: _ => 1
  | _ => digits isDigit characters

/-- The number of characters of a literal with a base mark and digits of that base. -/
def basedNumber (characters : List Char) : Nat :=
  match characters with
  | '0' :: mark :: more =>
    let count :=
      if mark == 'x' || mark == 'X' then digits isHexDigit more
      else if mark == 'b' || mark == 'B' then digits (fun c => c == '0' || c == '1') more
      else if mark == 'o' || mark == 'O' then digits (fun c => '0' ≤ c && c ≤ '7') more
      else 0
    if count = 0 then 0 else count + 2
  | _ => 0

/-- The number of characters with a mark for large whole numbers behind them, if one stands there. -/
def withLargeMark (characters : List Char) (count : Nat) : Nat :=
  if count ≠ 0 && (characters.drop count).head? == some 'n' then count + 1 else count

/-- The number of characters of the longest number at the start of the list; zero when there is
none. -/
def numberLength (characters : List Char) : Nat :=
  let based := withLargeMark characters (basedNumber characters)
  let plain := withLargeMark characters (digits isDigit characters)
  let whole := wholePart characters
  let behindWhole := characters.drop whole
  let pointed :=
    if whole = 0 then
      match characters with
      | '.' :: more =>
        let fraction := digits isDigit more
        if fraction = 0 then 0 else 1 + fraction + exponentPart (more.drop fraction)
      | _ => 0
    else
      match behindWhole with
      | '.' :: more =>
        let fraction := digits isDigit more
        whole + 1 + fraction + exponentPart (more.drop fraction)
      | _ =>
        let exponent := exponentPart behindWhole
        if exponent = 0 then 0 else whole + exponent
  max based (max plain pointed)

/-- The number of characters of the escape at the start of the list; zero when it is none. -/
def escapeLength (characters : List Char) : Nat :=
  match characters with
  | '\\' :: 'x' :: a :: b :: _ => if isHexDigit a && isHexDigit b then 4 else 0
  | '\\' :: 'u' :: _ => (unicodeEscape? characters).getD 0
  | '\\' :: '\r' :: next :: _ => if isNewLine next then 3 else 2
  | '\\' :: letter :: rest =>
    if '0' ≤ letter && letter ≤ '7' then
      1 + ((letter :: rest).takeWhile fun c => '0' ≤ c && c ≤ '7').length.min 3
    else if letter == 'x' then 0
    else 2
  | _ => 0

/-- The cursor behind a string literal, from behind its opening quote; nothing when it is broken. -/
def stringEnd? (quote : Char) : Nat → Cursor → Option Cursor
  | 0, _ => none
  | fuel + 1, cursor =>
    let plain := Cursor.skipWhile
      (fun c => c != quote && c != '\\' && c != '\n' && c != '\r') cursor.rest cursor.offset
    match plain.rest with
    | [] => none
    | character :: _ =>
      if character == quote then some (plain.advance 1)
      else
        match escapeLength plain.rest with
        | 0 => none
        | count => stringEnd? quote fuel (plain.advance count)

/-- The number of characters of a regular expression's class, from behind its opening bracket. -/
def classLength : Nat → List Char → Option Nat
  | 0, _ => none
  | fuel + 1, characters =>
    match characters with
    | ']' :: _ => some 1
    | '\\' :: escaped :: rest => if escaped == '\n' then none else (classLength fuel rest).map (· + 2)
    | '\n' :: _ => none
    | _ :: rest => (classLength fuel rest).map (· + 1)
    | [] => none

def patternLength : Nat → List Char → Nat
  | 0, _ => 0
  | fuel + 1, characters =>
    match characters with
    | [] => 0
    | '/' :: _ => 0
    | '\n' :: _ => 0
    | '[' :: rest =>
      match classLength fuel rest with
      | none => 0
      | some count => patternLength fuel (rest.drop count) + count + 1
    | '\\' :: escaped :: rest => if escaped == '\n' then 0 else patternLength fuel rest + 2
    | ['\\'] => 0
    | _ :: rest => patternLength fuel rest + 1

/-- The number of characters of the regular expression at the start of the list; zero when it is
none. -/
def regexLength (characters : List Char) : Nat :=
  match characters with
  | '/' :: rest =>
    let pattern := patternLength nameFuel rest
    let behind := rest.drop pattern
    if pattern = 0 then 0
    else
      match behind with
      | '/' :: more => pattern + 2 + (more.takeWhile fun c => 'a' ≤ c && c ≤ 'z').length
      | _ => 0
  | _ => 0

/-- The number of characters of a reference to a character at the start of the list; zero when it is
none. -/
def referenceLength (characters : List Char) : Nat :=
  match characters with
  | '&' :: '#' :: mark :: more =>
    if mark == 'x' || mark == 'X' then
      let count := (more.takeWhile isHexDigit).length
      if 1 ≤ count && count ≤ 6 && (more.drop count).head? == some ';' then count + 4 else 0
    else
      let count := ((mark :: more).takeWhile isDigit).length
      if 1 ≤ count && count ≤ 5 && ((mark :: more).drop count).head? == some ';' then count + 3
      else 0
  | '&' :: more =>
    let count := (more.takeWhile isLetter).length
    if 1 ≤ count && count ≤ 30 && (more.drop count).head? == some ';' then count + 2 else 0
  | _ => 0

end ModuleAtlas.Script
