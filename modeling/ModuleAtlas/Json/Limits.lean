import ModuleAtlas.Json.Printer

/-!
# Limits on documents

What keeps a document from being copied, written or sent: nesting, numbers that are not finite, and texts
with halves of pairs.
-/

namespace ModuleAtlas.Json

/-! ## Nesting -/

mutual

/-- The calls that are under way at once while a document is copied: two for every array or object on
the way down, and three for what holds nothing further, keys included. -/
def copyingCalls : Json → Nat
  | .array items => 2 + copyingCallsOfItems items
  | .object fields => 2 + copyingCallsOfFields fields
  | _ => 3

def copyingCallsOfItems : List Json → Nat
  | [] => 0
  | item :: rest => max (copyingCalls item) (copyingCallsOfItems rest)

def copyingCallsOfFields : List (RawText × Json) → Nat
  | [] => 0
  | (_, value) :: rest => max (max 3 (copyingCalls value)) (copyingCallsOfFields rest)

end

mutual

def nesting : Json → Nat
  | .array items => 1 + nestingOfItems items
  | .object fields => 1 + nestingOfFields fields
  | _ => 0

def nestingOfItems : List Json → Nat
  | [] => 0
  | item :: rest => max (nesting item) (nestingOfItems rest)

def nestingOfFields : List (RawText × Json) → Nat
  | [] => 0
  | (_, value) :: rest => max (nesting value) (nestingOfFields rest)

end

/-- How deeply documents may be nested. There is always room for a report without the prose of a
model. -/
structure Limits where
  /-- The calls that may be under way at once while a part of a report is copied. -/
  calls : Nat
  /-- The arrays and objects that may stand in each other in what the service sends. -/
  levels : Nat
  roomy : 7 ≤ calls ∧ 7 ≤ levels

/-- The limits where little else is under way. -/
def Limits.usual : Limits :=
  ⟨960, 250, Nat.le_of_ble_eq_true rfl, Nat.le_of_ble_eq_true rfl⟩

/-! ## Numbers and texts -/

mutual

def floats : Json → List Binary64
  | .float value => [value]
  | .array items => floatsOfItems items
  | .object fields => floatsOfFields fields
  | _ => []

def floatsOfItems : List Json → List Binary64
  | [] => []
  | item :: rest => floats item ++ floatsOfItems rest

def floatsOfFields : List (RawText × Json) → List Binary64
  | [] => []
  | (_, value) :: rest => floats value ++ floatsOfFields rest

end

/-- Whether the standard of the format has a text for every number in a document. -/
def isStandard (document : Json) : Bool :=
  document.floats.all Binary64.isFinite

mutual

/-- The texts in a document, at any depth, keys included. -/
def texts : Json → List RawText
  | .string value => [value]
  | .array items => textsOfItems items
  | .object fields => textsOfFields fields
  | _ => []

def textsOfItems : List Json → List RawText
  | [] => []
  | item :: rest => texts item ++ textsOfItems rest

def textsOfFields : List (RawText × Json) → List RawText
  | [] => []
  | (key, value) :: rest => key :: (texts value ++ textsOfFields rest)

end

/-- Whether no text in a document holds a half. -/
def isProper (document : Json) : Bool :=
  document.texts.all RawText.isProper

/-- Whether a document can be sent: it is nested no deeper than the given levels, and every number and
text in it can be spelled. -/
def isSendable (levels : Nat) (document : Json) : Bool :=
  decide (document.nesting ≤ levels) && document.isStandard && document.isWritable
    && document.isProper

end ModuleAtlas.Json
