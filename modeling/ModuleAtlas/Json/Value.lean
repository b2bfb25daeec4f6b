import ModuleAtlas.Number.Binary64
import ModuleAtlas.Text.Letter

/-!
# JSON documents

Documents of the JSON data format. Objects keep the order in which their keys were first given. Texts
and keys may hold halves of pairs, as the format spells characters beyond the first plane as pairs.
-/

namespace ModuleAtlas

/-- A JSON document. Whole numbers and floating-point numbers are kept apart, as they are written
differently. -/
inductive Json where
  | null
  | bool (value : Bool)
  | int (value : Int)
  | float (value : Binary64)
  | string (value : RawText)
  | array (items : List Json)
  | object (fields : List (RawText × Json))
  deriving Inhabited, Repr

namespace Json

/-- Puts a field into an object: a known key keeps its place and takes the new value. -/
def putField {κ α : Type} [DecidableEq κ] (fields : List (κ × α)) (key : κ) (value : α) :
    List (κ × α) :=
  match fields with
  | [] => [(key, value)]
  | (known, old) :: rest =>
    if known = key then (known, value) :: rest else (known, old) :: putField rest key value

/-- An object of fields in which a repeated key takes its last value and its first place. -/
def ofFields (fields : List (RawText × Json)) : Json :=
  .object (fields.foldl (fun known field => putField known field.1 field.2) [])

/-- The field of an object; nothing for other documents. -/
def field? (key : RawText) : Json → Option Json
  | .object fields => fields.lookup key
  | _ => none

/-- The field of an object, or `null`. -/
def field (document : Json) (key : RawText) : Json :=
  (document.field? key).getD .null

def string? : Json → Option RawText
  | .string value => some value
  | _ => none

def array? : Json → Option (List Json)
  | .array items => some items
  | _ => none

def object? : Json → Option (List (RawText × Json))
  | .object fields => some fields
  | _ => none

def ofOption {α : Type} (encode : α → Json) : Option α → Json
  | none => .null
  | some value => encode value

def ofList {α : Type} (encode : α → Json) (items : List α) : Json :=
  .array (items.map encode)

def strings (items : List String) : Json :=
  ofList (fun item : String => .string item) items

def nat (value : Nat) : Json :=
  .int value

end Json

end ModuleAtlas
