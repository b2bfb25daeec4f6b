import ModuleAtlas.Json.Value
import ModuleAtlas.Number.Quantity
import ModuleAtlas.Number.Reading
import ModuleAtlas.Text.Blank

/-!
# Orders to the service

What a client of the service orders, and the complaints about an order that does not have the right
form. Values are taken generously: a text that means a truth value or a number counts as one.
-/

namespace ModuleAtlas.Service

inductive Defect where
  | missing
  | notAnObject
  | notText
  | notTruth
  | unclearTruth
  | notNumber
  | unclearNumber
  /-- A text holds a half of a pair. -/
  | brokenText
  deriving DecidableEq, Repr

def Defect.name : Defect → String
  | .missing => "missing"
  | .notAnObject => "model_attributes_type"
  | .notText => "string_type"
  | .notTruth => "bool_type"
  | .unclearTruth => "bool_parsing"
  | .notNumber => "float_type"
  | .unclearNumber => "float_parsing"
  | .brokenText => "string_unicode"

structure Complaint where
  defect : Defect
  place : List String
  deriving DecidableEq, Repr

structure Order where
  path : String
  enriched : Bool := false
  timeout : Option Binary64 := none
  deriving DecidableEq, Repr

def yesWords : List String := ["1", "on", "t", "true", "y", "yes"]

def noWords : List String := ["0", "off", "f", "false", "n", "no"]

/-- The text with small letters in place of large ones of the basic alphabet. -/
def lowerBasic (text : String) : String :=
  String.ofList (text.toList.map Char.toLower)

def truthOfInt (value : Int) : Except Defect Bool :=
  if value = 0 then .ok false else if value = 1 then .ok true else .error .unclearTruth

def isWhole : Binary64 → Bool
  | .finite _ significand exponent =>
    let (numerator, denominator) := Binary64.ratio significand exponent
    numerator % denominator == 0
  | _ => false

def truthOf : Json → Except Defect Bool
  | .bool value => .ok value
  | .int value => truthOfInt value
  | .float value =>
    if value.isZero then .ok false
    else if value == Quantity.toFloat (.whole 1) then .ok true
    else if isWhole value then .error .unclearTruth
    else .error .notTruth
  | .string (.broken _ _ _) => .error .brokenText
  | .string (.proper text) =>
    if yesWords.contains (lowerBasic text) then .ok true
    else if noWords.contains (lowerBasic text) then .ok false
    else .error .unclearTruth
  | _ => .error .notTruth

/-- The number that a value means. Texts hold numbers of the basic alphabet only. -/
def numberOf : Json → Except Defect Binary64
  | .bool value => .ok (Quantity.toFloat (.whole (if value then 1 else 0)))
  | .int value => .ok (Quantity.toFloat (.whole value))
  | .float value => .ok value
  | .string (.broken _ _ _) => .error .brokenText
  | .string (.proper text) =>
    let bare := Text.trim text
    if bare.toList.all fun character => character.toNat < 128 then
      match Reading.float bare with
      | some value => .ok value
      | none => .error .unclearNumber
    else .error .unclearNumber
  | _ => .error .notNumber

/-- The part of an order that was not given, or what its value means. -/
def part {α : Type} (fields : List (RawText × Json)) (key : String) (missing : Except Defect α)
    (read : Json → Except Defect α) : Except Complaint α :=
  let result :=
    match fields.lookup (key : RawText) with
    | none => missing
    | some value => read value
  result.mapError fun defect => ⟨defect, ["body", key]⟩

def pathOf : Json → Except Defect String
  | .string (.broken _ _ _) => .error .brokenText
  | .string (.proper text) => .ok text
  | _ => .error .notText

def timeoutOf : Json → Except Defect (Option Binary64)
  | .null => .ok none
  | value => (numberOf value).map some

def complaint? {α : Type} : Except Complaint α → List Complaint
  | .ok _ => []
  | .error complaint => [complaint]

/-- The order with the given fields. All parts are looked at, so that all complaints are heard. -/
def Order.ofFields (fields : List (RawText × Json)) : Except (List Complaint) Order :=
  let path := part fields "path" (.error .missing) pathOf
  let enriched := part fields "enrich" (.ok false) truthOf
  let timeout := part fields "timeout" (.ok none) timeoutOf
  match path, enriched, timeout with
  | .ok path, .ok enriched, .ok timeout => .ok ⟨path, enriched, timeout⟩
  | _, _, _ => .error (complaint? path ++ complaint? enriched ++ complaint? timeout)

def Order.ofBody : Option Json → Except (List Complaint) Order
  | none => .error [⟨.missing, ["body"]⟩]
  | some (.object fields) => Order.ofFields fields
  | some .null => .error [⟨.missing, ["body"]⟩]
  | some _ => .error [⟨.notAnObject, ["body"]⟩]

end ModuleAtlas.Service
