import ModuleAtlas.Number.Reading
import ModuleAtlas.Text.LetterCase
import ModuleAtlas.Yaml.Token

/-!
# Single texts of a YAML document

What single texts of a document stand for: the kind of value that a text looks like, and the value
itself.
-/

namespace ModuleAtlas.Yaml

inductive Tag where
  | null
  | bool
  | int
  | float
  | binary
  | timestamp
  | text
  | sequence
  | mapping
  | orderedMapping
  | pairs
  | set
  | merge
  | value
  | other (name : String)
  deriving DecidableEq, Repr

def Tag.names : List (String × Tag) :=
  [("null", .null), ("bool", .bool), ("int", .int), ("float", .float), ("binary", .binary),
    ("timestamp", .timestamp), ("str", .text), ("seq", .sequence), ("map", .mapping),
    ("omap", .orderedMapping), ("pairs", .pairs), ("set", .set), ("merge", .merge),
    ("value", .value)]

/-- What the names of tags begin with. -/
def Tag.family : String := "tag:yaml.org,2002:"

def Tag.ofName (name : String) : Tag :=
  if Text.beginsWith name Tag.family then
    (Tag.names.lookup (Text.drop Tag.family.length name)).getD (.other name)
  else .other name

/-! ## What a text looks like -/

def truthWords : List String :=
  ["yes", "Yes", "YES", "no", "No", "NO", "true", "True", "TRUE", "false", "False", "FALSE", "on",
    "On", "ON", "off", "Off", "OFF"]

def nullWords : List String := ["~", "null", "Null", "NULL", ""]

def isDigitOrUnderscore (character : Char) : Bool :=
  character.isDigit || character == '_'

def unsigned (characters : List Char) : List Char :=
  (Reading.sign characters).2

/-- The parts behind the first colon of a number in base sixty. -/
def isSixtieth (part : List Char) : Bool :=
  match part with
  | [digit] => digit.isDigit
  | [high, low] => '0' ≤ high && high ≤ '5' && low.isDigit
  | _ => false

/-- Whether characters are not empty and all satisfy a test. -/
def areAll (test : Char → Bool) (characters : List Char) : Bool :=
  !characters.isEmpty && characters.all test

/-- A digit followed by digits and underscores. -/
def isCount (first : Char → Bool) (characters : List Char) : Bool :=
  match characters with
  | [] => false
  | character :: rest => first character && rest.all isDigitOrUnderscore

def isPositiveDigit (character : Char) : Bool :=
  character.isDigit && character != '0'

def looksInt (characters : List Char) : Bool :=
  let bare := unsigned characters
  match bare with
  | ['0'] => true
  | '0' :: 'b' :: digits => areAll (fun c => c == '0' || c == '1' || c == '_') digits
  | '0' :: 'x' :: digits => areAll (fun c => (Reading.digit? 16 c).isSome || c == '_') digits
  | '0' :: digits => areAll (fun c => ('0' ≤ c && c ≤ '7') || c == '_') digits
  | _ =>
    match Text.splitList ':' bare with
    | first :: rest => isCount isPositiveDigit first && rest.all isSixtieth
    | [] => false

/-- Whether nothing follows, or an exponent with a sign. -/
def isSignedExponent (characters : List Char) : Bool :=
  match characters with
  | [] => true
  | mark :: sign :: digits =>
    (mark == 'e' || mark == 'E') && (sign == '+' || sign == '-') && areAll Char.isDigit digits
  | _ => false

def looksFloat (characters : List Char) : Bool :=
  let bare := unsigned characters
  let word := String.ofList bare
  let whole := bare.takeWhile (· != '.')
  let behind := (bare.drop whole.length).drop 1
  let hasPoint := whole.length < bare.length
  let fraction := behind.takeWhile isDigitOrUnderscore
  let rest := behind.drop fraction.length
  let withWhole := isCount Char.isDigit whole && isSignedExponent rest
  let withoutWhole := characters.head? == some '.' && isCount Char.isDigit fraction
    && isSignedExponent rest
  let inSixties :=
    match Text.splitList ':' whole with
    | first :: next :: others =>
      isCount Char.isDigit first && (next :: others).all isSixtieth && rest.isEmpty
    | _ => false
  [".inf", ".Inf", ".INF"].contains word
    || [".nan", ".NaN", ".NAN"].contains (String.ofList characters)
    || (hasPoint && (withWhole || withoutWhole || inSixties))

/-! ## Moments -/

/-- A moment as it is written. -/
structure Moment where
  year : Nat
  month : Nat
  day : Nat
  clock : Option (Nat × Nat × Nat) := none
  /-- The sign, the hours and the minutes of the distance from universal time. -/
  zone : Option (Bool × Nat × Nat) := none
  deriving DecidableEq, Repr

def decimal (digits : List Char) : Nat :=
  Reading.ofDigits 10 (digits.map fun digit => digit.toNat - 48)

/-- Takes between `least` and `most` digits from the start. -/
def takeDigits (least most : Nat) (characters : List Char) : Option (Nat × List Char) :=
  let digits := (characters.take most).takeWhile Char.isDigit
  if digits.length < least then none else some (decimal digits, characters.drop digits.length)

def takeMark (mark : Char) : List Char → Option (List Char)
  | character :: rest => if character == mark then some rest else none
  | [] => none

/-- A year, a month and a day with hyphens between them. -/
def date? (least : Nat) (characters : List Char) : Option (Nat × Nat × Nat × List Char) := do
  let (year, rest) ← takeDigits 4 4 characters
  let (month, rest) ← takeDigits least 2 (← takeMark '-' rest)
  let (day, rest) ← takeDigits least 2 (← takeMark '-' rest)
  return (year, month, day, rest)

/-- The distance from universal time, if all that is left is one. -/
def zone? (characters : List Char) : Option (Option (Bool × Nat × Nat)) :=
  match characters.dropWhile isSpace with
  | [] => if characters.isEmpty then some none else none
  | ['Z'] => some none
  | sign :: rest =>
    if sign == '+' || sign == '-' then do
      let (hours, behind) ← takeDigits 1 2 rest
      match behind with
      | [] => return some (sign == '-', hours, 0)
      | ':' :: more => do
        let (minutes, final) ← takeDigits 2 2 more
        if final.isEmpty then return some (sign == '-', hours, minutes) else none
      | _ => none
    else none

def clock? (characters : List Char) : Option ((Nat × Nat × Nat) × Option (Bool × Nat × Nat)) := do
  let rest ←
    match characters with
    | 'T' :: rest => some rest
    | 't' :: rest => some rest
    | blank :: rest => if isSpace blank then some (rest.dropWhile isSpace) else none
    | [] => none
  let (hour, rest) ← takeDigits 1 2 rest
  let (minute, rest) ← takeDigits 2 2 (← takeMark ':' rest)
  let (second, rest) ← takeDigits 2 2 (← takeMark ':' rest)
  let behind :=
    match rest with
    | '.' :: more => more.dropWhile Char.isDigit
    | other => other
  let zone ← zone? behind
  return ((hour, minute, second), zone)

/-- The moment that a text spells. Months and days of a date alone need `least` digits. -/
def moment? (least : Nat) (characters : List Char) : Option Moment :=
  match date? least characters, date? 1 characters with
  | some (year, month, day, []), _ => some ⟨year, month, day, none, none⟩
  | _, some (year, month, day, rest) =>
    (clock? rest).map fun (clock, zone) => ⟨year, month, day, some clock, zone⟩
  | _, _ => none

def isLeap (year : Nat) : Bool :=
  year % 4 == 0 && (year % 100 != 0 || year % 400 == 0)

def daysOf (year month : Nat) : Nat :=
  if month == 2 then (if isLeap year then 29 else 28)
  else if [4, 6, 9, 11].contains month then 30
  else 31

/-- A span of time in days and seconds of a day. -/
def spanText (minutes : Int) : String :=
  let days := minutes.fdiv 1440
  let seconds := (minutes.fmod 1440) * 60
  let parts :=
    (if days == 0 then [] else [s!"days={days}"])
      ++ (if seconds == 0 then [] else [s!"seconds={seconds}"])
  "datetime.timedelta(" ++ String.intercalate ", " parts ++ ")"

/-- Checks a moment against the calendar. -/
def Moment.check (moment : Moment) : Except Fault Unit := do
  if let some (negative, hours, minutes) := moment.zone then
    let distance := hours * 60 + minutes
    if 1440 ≤ distance then
      throw (.badMoment ("offset must be a timedelta strictly between -timedelta(hours=24) and "
        ++ s!"timedelta(hours=24), not {spanText (Reading.signedInt negative distance)}."))
  if moment.year = 0 then throw (.badMoment s!"year {moment.year} is out of range")
  if moment.month = 0 || 12 < moment.month then throw (.badMoment "month must be in 1..12")
  if moment.day = 0 || daysOf moment.year moment.month < moment.day then
    throw (.badMoment "day is out of range for month")
  if let some (hour, minute, second) := moment.clock then
    if 23 < hour then throw (.badMoment "hour must be in 0..23")
    if 59 < minute then throw (.badMoment "minute must be in 0..59")
    if 59 < second then throw (.badMoment "second must be in 0..59")

/-- The tag of a plain text. A line end at the very end is not looked at. -/
def Tag.ofText (text : String) : Tag :=
  let characters := text.toList
  let looked := if characters.getLast? = some '\n' then characters.dropLast else characters
  let word := String.ofList looked
  if text == "" then .null
  else if truthWords.contains word then .bool
  else if looksFloat looked then .float
  else if looksInt looked then .int
  else if word == "<<" then .merge
  else if word != "" && nullWords.contains word then .null
  else if (moment? 2 looked).isSome then .timestamp
  else if word == "=" then .value
  else .text

/-! ## Values -/

inductive Atom where
  | null
  | bool (value : Bool)
  | int (value : Int)
  | float (value : Binary64)
  | text (value : String)
  | octets (value : List UInt8)
  | moment (value : Moment)
  deriving Repr

/-- The words for truth values in lower case, with their meaning. -/
def truths : List (String × Bool) :=
  [("yes", true), ("no", false), ("true", true), ("false", false), ("on", true), ("off", false)]

/-- The whole number that a text in a base spells, with faults of this format. -/
def intIn (base : Nat) (text : List Char) : Except Fault Int :=
  match Reading.intIn base (String.ofList text) with
  | .ok value => .ok value
  | .error .malformed => .error (.badInteger base (String.ofList text))
  | .error (.digitLimit digits) => .error (.digitLimit digits)

/-- Digits of a base behind its own sign, which may be repeated. -/
def behindBase (letter : Char) (characters : List Char) : List Char :=
  match characters with
  | '0' :: second :: rest => if second.toLower == letter then rest else characters
  | _ => characters

/-- The whole number in a base, where the text may also name the base. -/
def basedInt (base : Nat) (letter : Char) (text : List Char) : Except Fault Int :=
  match intIn base (behindBase letter text) with
  | .ok value => .ok value
  | .error _ => .error (.badInteger base (String.ofList text))

/-- The digits of a number in base sixty put together, highest first. -/
def sixties (digits : List Int) : Int :=
  digits.foldl (fun value digit => value * 60 + digit) 0

def intValue (text : String) : Except Fault Int :=
  let plain := text.toList.filter (· != '_')
  let (negative, bare) := Reading.sign plain
  let signed (value : Int) : Int := if negative then -value else value
  if bare.isEmpty then .error .emptyNumber
  else if bare == ['0'] then .ok 0
  else
    match bare with
    | '0' :: 'b' :: digits => (basedInt 2 'b' digits).map signed
    | '0' :: 'x' :: digits => (basedInt 16 'x' digits).map signed
    | '0' :: _ => (basedInt 8 'o' bare).map signed
    | _ =>
      if bare.contains ':' then
        ((Text.splitList ':' bare).mapM (intIn 10)).map fun digits => signed (sixties digits)
      else (intIn 10 bare).map signed

def floatOf (text : List Char) : Except Fault Binary64 :=
  match Reading.float (String.ofList text) with
  | some value => .ok value
  | none => .error (.badFloat (String.ofList text))

def sixtiesOf : List Binary64 → Int → Binary64 → Binary64
  | [], _, value => value
  | digit :: rest, base, value =>
    let weight := (Binary64.ofInt? base).getD (.infinite false)
    sixtiesOf rest (base * 60) (value.add (digit.multiply weight))

def floatValue (text : String) : Except Fault Binary64 :=
  let plain := (Text.lower (String.ofList (text.toList.filter (· != '_')))).toList
  let (negative, bare) := Reading.sign plain
  let signed (value : Binary64) : Binary64 := if negative then value.negate else value
  if plain.isEmpty then .error .emptyNumber
  else if bare == ".inf".toList then .ok (.infinite negative)
  else if bare == ".nan".toList then .ok .nan
  else if bare.contains ':' then
    ((Text.splitList ':' bare).mapM floatOf).map fun digits =>
      signed (sixtiesOf digits.reverse 1 (.zero false))
  else (floatOf bare).map signed

/-! ## Octets in text -/

def sixBits? (character : Char) : Option Nat :=
  let point := character.toNat
  if 65 ≤ point && point ≤ 90 then some (point - 65)
  else if 97 ≤ point && point ≤ 122 then some (point - 71)
  else if 48 ≤ point && point ≤ 57 then some (point + 4)
  else if character == '+' then some 62
  else if character == '/' then some 63
  else none

/-- Reads octets in groups of four characters; others are passed over. `place` counts the characters
of the group, `left` holds the bits that are left over, and `pads` the padding in a row. -/
def octetsFrom : List Char → Nat → Nat → Nat → List UInt8 → Except Fault (List UInt8)
  | [], place, _, _, taken =>
    if place = 0 then .ok taken.reverse else .error (.unfit "failed to decode base64 data")
  | character :: rest, place, left, pads, taken =>
    if character == '=' then
      if 2 ≤ place then
        if 4 ≤ place + pads + 1 then .ok taken.reverse
        else octetsFrom rest place left (pads + 1) taken
      else octetsFrom rest place left pads taken
    else
      match sixBits? character with
      | none => octetsFrom rest place left pads taken
      | some bits =>
        match place with
        | 0 => octetsFrom rest 1 bits 0 taken
        | 1 => octetsFrom rest 2 (bits % 16) 0 ((left * 4 + bits / 16).toUInt8 :: taken)
        | 2 => octetsFrom rest 3 (bits % 4) 0 ((left * 16 + bits / 4).toUInt8 :: taken)
        | _ => octetsFrom rest 0 0 0 ((left * 64 + bits).toUInt8 :: taken)

def octetsValue (text : String) : Except Fault (List UInt8) :=
  if text.toList.all fun character => character.toNat < 128 then octetsFrom text.toList 0 0 0 []
  else .error (.unfit "failed to convert base64 data into ascii")

def momentValue (text : String) : Except Fault Moment := do
  let characters := text.toList
  let looked := if characters.getLast? = some '\n' then characters.dropLast else characters
  let some moment := moment? 1 looked | throw .notAMoment
  moment.check
  return moment

/-- The value of a text under a tag; none for tags of collections. -/
def Atom.ofText (text : String) : Tag → Except Fault (Option Atom)
  | .null => .ok (some .null)
  | .bool =>
    match truths.lookup (Text.lower text) with
    | some value => .ok (some (.bool value))
    | none => .error (.badTruth (Text.lower text))
  | .int => (intValue text).map fun value => some (.int value)
  | .float => (floatValue text).map fun value => some (.float value)
  | .binary => (octetsValue text).map fun value => some (.octets value)
  | .timestamp => (momentValue text).map fun value => some (.moment value)
  | .text => .ok (some (.text text))
  | _ => .ok none

end ModuleAtlas.Yaml
