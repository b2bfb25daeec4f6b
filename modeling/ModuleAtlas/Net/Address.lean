import ModuleAtlas.Number.Reading
import ModuleAtlas.Text.LetterCase

/-!
# Addresses of machines

Addresses of machines, and which of them are this machine.
-/

namespace ModuleAtlas.Net

inductive Address where
  | v4 (value : Nat)
  | v6 (value : Nat)
  deriving DecidableEq, Repr

namespace Address

/-- An octet in decimal: up to three digits, no zero in front of others, at most 255. -/
def octet? (text : String) : Option Nat :=
  let characters := text.toList
  if characters.isEmpty || 3 < characters.length || !characters.all Char.isDigit then none
  else if 1 < characters.length && characters.head? = some '0' then none
  else
    let value := Reading.ofDigits 10 (characters.map fun c => c.toNat - 48)
    if value ≤ 255 then some value else none

def v4? (text : String) : Option Nat :=
  match (Text.split '.' text).mapM octet? with
  | some [a, b, c, d] => some (((a * 256 + b) * 256 + c) * 256 + d)
  | _ => none

/-- Up to four hexadecimal digits. -/
def hextet? (text : String) : Option Nat :=
  let characters := text.toList
  if characters.isEmpty || 4 < characters.length then none
  else (characters.mapM (Reading.digit? 16)).map (Reading.ofDigits 16)

/-- The parts between colons, where four octets at the end count as two parts. -/
def parts? (text : String) : Option (List (Option Nat × Bool)) :=
  let pieces := Text.split ':' text
  let plain (piece : String) : Option Nat × Bool := (hextet? piece, piece == "")
  if pieces.length < 3 then none
  else
    match pieces.getLast? with
    | none => none
    | some last =>
      if last.toList.contains '.' then
        (v4? last).map fun value =>
          pieces.dropLast.map plain
            ++ [(some (value / 65536), false), (some (value % 65536), false)]
      else some (pieces.map plain)

/-- The indices strictly inside a list at which a part is empty. -/
def gaps (parts : List (Option Nat × Bool)) : List Nat :=
  (List.range parts.length).filter fun index =>
    0 < index && index + 1 < parts.length && ((parts[index]?.map (·.2)).getD false)

/-- The number of parts joined, high part first. -/
def joined (parts : List (Option Nat × Bool)) : Option Nat :=
  (parts.mapM fun (part : Option Nat × Bool) => part.1).map (Reading.ofDigits 65536)

def startsEmpty (parts : List (Option Nat × Bool)) : Bool :=
  (parts.head?.map (·.2)).getD false

def endsEmpty (parts : List (Option Nat × Bool)) : Bool :=
  (parts.getLast?.map (·.2)).getD false

/-- The address of up to eight parts, of which one run may be left out. -/
def ofParts? (parts : List (Option Nat × Bool)) : Option Nat :=
  if 9 < parts.length then none
  else
    match gaps parts with
    | [] => if parts.length = 8 && !startsEmpty parts && !endsEmpty parts then joined parts else none
    | [gap] =>
      let high := if startsEmpty parts then (parts.take gap).drop 1 else parts.take gap
      let low := if endsEmpty parts then (parts.drop (gap + 1)).dropLast else parts.drop (gap + 1)
      if (startsEmpty parts && !high.isEmpty) || (endsEmpty parts && !low.isEmpty) then none
      else if 8 ≤ high.length + low.length then none
      else
        match joined high, joined low with
        | some above, some below => some (above * Nat.pow 65536 (8 - high.length) + below)
        | _, _ => none
    | _ => none

/-- The address between colons, with a scope behind a percent sign allowed. -/
def v6? (text : String) : Option Nat :=
  match Text.split '%' text with
  | [address] => (parts? address).bind ofParts?
  | [address, scope] => if scope == "" then none else (parts? address).bind ofParts?
  | _ => none

def ofText? (text : String) : Option Address :=
  if text.toList.contains '/' then none
  else
    match v4? text with
    | some value => some (.v4 value)
    | none => (v6? text).map .v6

/-- Whether the address leads back to the machine itself. -/
def isLoopback : Address → Bool
  | .v4 value => value / 16777216 == 127
  | .v6 value => value == 1

end Address

/-- Names of this machine and of the model runner beside it. -/
def localNames : List String :=
  ["localhost", "127.0.0.1", "0.0.0.0", "::1", "model-runner.docker.internal"]

/-- Whether a host is this machine or one on its own network. -/
def isLocalHost (host : String) : Bool :=
  let lowered := Text.lower host
  localNames.contains lowered || Text.endsWith lowered ".local"
    || Text.endsWith lowered ".localdomain"
    || ((Address.ofText? lowered).map Address.isLoopback).getD false

end ModuleAtlas.Net
