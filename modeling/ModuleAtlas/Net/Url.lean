import ModuleAtlas.Net.Address
import ModuleAtlas.Text.Quoted

/-!
# Hosts on the net

The host that an address on the net names, and the requirement that it be this machine.
-/

namespace ModuleAtlas.Net

inductive UrlFault where
  | unbalancedBrackets
  | badFutureAddress
  | bracketedV4
  | notAnAddress (host : String)
  | deceptiveCharacters (netloc : String)
  deriving DecidableEq, Repr

def UrlFault.message : UrlFault → String
  | .unbalancedBrackets => "Invalid IPv6 URL"
  | .badFutureAddress => "IPvFuture address is invalid"
  | .bracketedV4 => "An IPv4 address cannot be in brackets"
  | .notAnAddress host =>
    s!"{Text.Quoted.quote host} does not appear to be an IPv4 or IPv6 address"
  | .deceptiveCharacters netloc =>
    s!"netloc '{netloc}' contains invalid characters under NFKC normalization"

def isControlOrSpace (character : Char) : Bool :=
  character.toNat ≤ 32

/-- Characters that are left out wherever they stand. -/
def isDropped (character : Char) : Bool :=
  character == '\t' || character == '\r' || character == '\n'

def isSchemeChar (character : Char) : Bool :=
  character.isAlphanum || character == '+' || character == '-' || character == '.'

def behindScheme (characters : List Char) : List Char :=
  let scheme := characters.takeWhile (· != ':')
  let begins := (scheme.head?.map Char.isAlpha).getD false
  if begins && scheme.all isSchemeChar && scheme.length < characters.length then
    characters.drop (scheme.length + 1)
  else characters

/-- Characters that end the part with the host. -/
def endsNetloc (character : Char) : Bool :=
  character == '/' || character == '?' || character == '#'

/-- The part with the host; empty when there is none. -/
def netloc (characters : List Char) : List Char :=
  match behindScheme ((characters.dropWhile isControlOrSpace).filter fun c => !isDropped c) with
  | '/' :: '/' :: rest => rest.takeWhile fun c => !endsNetloc c
  | _ => []

/-- Characters that turn into marks of the address itself when their compatible forms are taken. -/
def isDeceptive (character : Char) : Bool :=
  [0x2047, 0x2048, 0x2049, 0x2100, 0x2101, 0x2105, 0x2106, 0x2a74, 0xfe13, 0xfe16, 0xfe55, 0xfe56,
    0xfe5f, 0xfe6b, 0xff03, 0xff0f, 0xff1a, 0xff1f, 0xff20].contains character.toNat

def betweenBrackets (characters : List Char) : List Char :=
  ((characters.dropWhile (· != '[')).drop 1).takeWhile (· != ']')

/-- Whether the text between brackets is an address of a future version. -/
def isFutureAddress (characters : List Char) : Bool :=
  match characters with
  | 'v' :: rest =>
    let version := rest.takeWhile fun c => (Reading.digit? 16 c).isSome
    let behind := rest.drop version.length
    !version.isEmpty && behind.head? == some '.' && 1 < behind.length && !(behind.contains '\n')
  | _ => false

def checkBrackets (characters : List Char) : Except UrlFault Unit :=
  let opens := characters.contains '['
  let closes := characters.contains ']'
  if opens != closes then .error .unbalancedBrackets
  else if !opens then .ok ()
  else
    let inner := betweenBrackets characters
    if inner.head? = some 'v' then
      if isFutureAddress inner then .ok () else .error .badFutureAddress
    else
      match Address.ofText? (String.ofList inner) with
      | some (.v6 _) => .ok ()
      | some (.v4 _) => .error .bracketedV4
      | none => .error (.notAnAddress (String.ofList inner))

/-- The host in the part that holds it, without names of users and ports. -/
def hostOf (characters : List Char) : List Char :=
  let info := (characters.reverse.takeWhile (· != '@')).reverse
  if info.contains '[' then betweenBrackets info else info.takeWhile (· != ':')

def lowerHost (characters : List Char) : String :=
  let name := characters.takeWhile (· != '%')
  Text.lower (String.ofList name) ++ String.ofList (characters.drop name.length)

def host? (url : String) : Except UrlFault (Option String) := do
  let part := netloc url.toList
  checkBrackets part
  if part.any isDeceptive then throw (.deceptiveCharacters (String.ofList part))
  let host := hostOf part
  return if host.isEmpty then none else some (lowerHost host)

inductive AddressRefusal where
  | malformed (fault : UrlFault)
  | remote (url : String)
  deriving DecidableEq, Repr

def AddressRefusal.message : AddressRefusal → String
  | .malformed fault => fault.message
  | .remote url =>
    s!"Remote base_url '{url}' is not permitted. Configure a local model runner."

/-- The address without slashes at its end. -/
def bareAddress (url : String) : String :=
  String.ofList (Text.dropEndWhile (· == '/') url.toList)

/-- The address without slashes at its end, if its host is this machine. An address without a host is
let pass. -/
def ensureLocal (url : String) : Except AddressRefusal String :=
  match host? (bareAddress url) with
  | .error fault => .error (.malformed fault)
  | .ok none => .ok (bareAddress url)
  | .ok (some host) => if isLocalHost host then .ok (bareAddress url) else .error (.remote url)

end ModuleAtlas.Net
