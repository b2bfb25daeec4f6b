/-!
# UTF-8

Reading octets as UTF-8. Octets are cut into units: a unit is either a character or a longest run of
octets that begins a character and does not finish it, or a single octet that begins none.
-/

namespace ModuleAtlas.Text.Utf8

/-- Why a run of octets is no character. -/
inductive Damage where
  /-- The octet begins no character. -/
  | badStart
  /-- An octet that should go on with the character does not. -/
  | badContinuation
  /-- The octets end inside the character. -/
  | cutShort
  deriving DecidableEq, Repr

/-- One step of reading: a character, or damaged octets that are skipped together. -/
inductive Piece where
  | character (value : Char)
  | damaged (cause : Damage)
  deriving DecidableEq, Repr

/-- Whether the octet may follow inside a character. -/
def isContinuation (octet : UInt8) : Bool :=
  0x80 ≤ octet && octet ≤ 0xBF

def payload (octet : UInt8) : Nat :=
  octet.toNat % 64

/-- The second octets that may follow a given first octet of a character of three or four octets;
the bounds exclude overlong forms, surrogates and values past the last code point. -/
def secondFits (first second : UInt8) : Bool :=
  if first == 0xE0 then 0xA0 ≤ second && second ≤ 0xBF
  else if first == 0xED then 0x80 ≤ second && second ≤ 0x9F
  else if first == 0xF0 then 0x90 ≤ second && second ≤ 0xBF
  else if first == 0xF4 then 0x80 ≤ second && second ≤ 0x8F
  else isContinuation second

/-- Reads one unit that begins with `first`; the count says how many octets of `rest` it takes. -/
def readPiece (first : UInt8) (rest : List UInt8) : Piece × Nat :=
  if first < 0x80 then (.character (Char.ofNat first.toNat), 0)
  else if 0xC2 ≤ first && first ≤ 0xDF then
    match rest with
    | [] => (.damaged .cutShort, 0)
    | second :: _ =>
      if isContinuation second then
        (.character (Char.ofNat ((first.toNat - 0xC0) * 64 + payload second)), 1)
      else (.damaged .badContinuation, 0)
  else if 0xE0 ≤ first && first ≤ 0xEF then
    match rest with
    | [] => (.damaged .cutShort, 0)
    | second :: rest' =>
      if secondFits first second then
        match rest' with
        | [] => (.damaged .cutShort, 1)
        | third :: _ =>
          if isContinuation third then
            (.character (Char.ofNat
              (((first.toNat - 0xE0) * 64 + payload second) * 64 + payload third)), 2)
          else (.damaged .badContinuation, 1)
      else (.damaged .badContinuation, 0)
  else if 0xF0 ≤ first && first ≤ 0xF4 then
    match rest with
    | [] => (.damaged .cutShort, 0)
    | second :: rest' =>
      if secondFits first second then
        match rest' with
        | [] => (.damaged .cutShort, 1)
        | third :: rest'' =>
          if isContinuation third then
            match rest'' with
            | [] => (.damaged .cutShort, 2)
            | fourth :: _ =>
              if isContinuation fourth then
                (.character (Char.ofNat
                  ((((first.toNat - 0xF0) * 64 + payload second) * 64 + payload third) * 64
                    + payload fourth)), 3)
              else (.damaged .badContinuation, 2)
          else (.damaged .badContinuation, 1)
      else (.damaged .badContinuation, 0)
  else (.damaged .badStart, 0)

/-- All units of a run of octets, each with the number of octets it takes. -/
def pieces : List UInt8 → List (Piece × Nat)
  | [] => []
  | first :: rest =>
    let step := readPiece first rest
    (step.1, step.2 + 1) :: pieces (rest.drop step.2)
termination_by octets => octets.length
decreasing_by
  simp only [List.length_drop, List.length_cons]
  omega

/-- The character a unit shows as: damage shows as the replacement character. -/
def Piece.shown : Piece → Char
  | .character value => value
  | .damaged _ => '\uFFFD'

/-- Text of any octets, with one replacement character for every damaged unit. -/
def decodeLossy (octets : List UInt8) : String :=
  String.ofList ((pieces octets).map fun piece => piece.1.shown)

/-- Text of any octets, without the damaged ones. -/
def decodeSkipping (octets : List UInt8) : String :=
  String.ofList ((pieces octets).filterMap fun piece =>
    match piece.1 with
    | .character value => some value
    | .damaged _ => none)

/-- Where and why octets are not UTF-8. -/
structure Fault where
  position : Nat
  width : Nat
  first : UInt8
  cause : Damage
  deriving DecidableEq, Repr

def decodeFrom (octets : List UInt8) (position : Nat) :
    List (Piece × Nat) → Except Fault (List Char)
  | [] => .ok []
  | (.character value, width) :: rest => do
    let others ← decodeFrom octets (position + width) rest
    pure (value :: others)
  | (.damaged cause, width) :: _ =>
    .error ⟨position, width, (octets.drop position).headD 0, cause⟩

def decode (octets : List UInt8) : Except Fault String :=
  (decodeFrom octets 0 (pieces octets)).map String.ofList

/-- Two lower-case hexadecimal digits of an octet. -/
def hexOctet (octet : UInt8) : String :=
  let digit (value : Nat) : Char :=
    if value < 10 then Char.ofNat (48 + value) else Char.ofNat (87 + value)
  String.ofList [digit (octet.toNat / 16), digit (octet.toNat % 16)]

def Damage.message : Damage → String
  | .badStart => "invalid start byte"
  | .badContinuation => "invalid continuation byte"
  | .cutShort => "unexpected end of data"

def Fault.message (fault : Fault) : String :=
  if fault.width = 1 then
    s!"'utf-8' codec can't decode byte 0x{hexOctet fault.first} in position {fault.position}: " ++
      fault.cause.message
  else
    s!"'utf-8' codec can't decode bytes in position {fault.position}-" ++
      s!"{fault.position + fault.width - 1}: " ++ fault.cause.message

def encode (text : String) : List UInt8 :=
  text.toUTF8.data.toList

end ModuleAtlas.Text.Utf8
