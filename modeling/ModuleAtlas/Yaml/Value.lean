import ModuleAtlas.Json.Value
import ModuleAtlas.Yaml.Node

/-!
# Values of a YAML document

Values of documents. Every node is checked, level by level; what is then given is a tree of values
down to a certain depth, as a document may hold itself.
-/

namespace ModuleAtlas.Yaml

/-- A value. Of a mapping the fields under texts are kept. -/
inductive Value where
  | null
  | bool (value : Bool)
  | int (value : Int)
  | float (value : Binary64)
  | text (value : String)
  | octets (value : List UInt8)
  | list (items : List Value)
  | map (fields : List (String × Value))
  /-- A value that nothing is made of: a moment, a set, or one that lies too deep. -/
  | other
  deriving Inhabited, Repr

def Atom.toValue : Atom → Value
  | .null => .null
  | .bool value => .bool value
  | .int value => .int value
  | .float value => .float value
  | .text value => .text value
  | .octets value => .octets value
  | .moment _ => .other

/-- Whether nodes with the tag are collections, which are checked after what stands beside them. -/
def Tag.isCollection : Tag → Bool
  | .sequence => true
  | .mapping => true
  | .orderedMapping => true
  | .pairs => true
  | .set => true
  | _ => false

def Tag.isUnknown : Tag → Bool
  | .merge => true
  | .value => true
  | .other _ => true
  | _ => false

namespace Document

def hasTag (document : Document) (tag : Tag) (number : Nat) : Bool :=
  (document.node number).tag == tag

/-- The text of a node. A mapping has the text under its key for a plain value. -/
def scalarText (document : Document) : Nat → Nat → Except Fault String
  | 0, _ => .error (.unfit "expected a scalar node")
  | fuel + 1, number =>
    match (document.node number).content with
    | .scalar text => .ok text
    | .mapping pairs =>
      match pairs.find? fun pair => document.hasTag .value pair.1 with
      | some pair => scalarText document fuel pair.2
      | none => .error (.unfit "expected a scalar node")
    | .sequence _ => .error (.unfit "expected a scalar node")

def atom? (document : Document) (number : Nat) : Except Fault (Option Atom) :=
  let tag := (document.node number).tag
  if tag.isUnknown then .error (.unfit "could not determine a constructor for the tag")
  else if tag.isCollection then .ok none
  else do
    let text ← document.scalarText (document.nodes.size + 1) number
    Atom.ofText text tag

/-- The value of a node that is a key. The key for a plain value is a text. -/
def keyAtom? (document : Document) (number : Nat) : Except Fault (Option Atom) :=
  if document.hasTag .value number then do
    return some (.text (← document.scalarText (document.nodes.size + 1) number))
  else document.atom? number

/-- The keys and values of a mapping, those of merged mappings first. `visited` are the mappings on
the way here; a mapping merged into itself adds nothing. -/
def flatPairs (document : Document) : Nat → List Nat → Nat → Except Fault (List (Nat × Nat))
  | 0, _, _ => .ok []
  | fuel + 1, visited, number =>
    match (document.node number).content with
    | .mapping pairs =>
      if visited.contains number then .ok []
      else do
        let inner (source : Nat) : Except Fault (List (Nat × Nat)) :=
          match (document.node source).content with
          | .mapping _ => flatPairs document fuel (number :: visited) source
          | _ => .error (.unfit "expected a mapping for merging")
        let merged ← (pairs.filter fun pair => document.hasTag .merge pair.1).mapM fun pair =>
          match (document.node pair.2).content with
          | .sequence items => (items.mapM inner).map fun lists => lists.reverse.flatten
          | _ => inner pair.2
        return merged.flatten ++ pairs.filter fun pair => !document.hasTag .merge pair.1
    | _ => .ok []

def pairsOf (document : Document) (number : Nat) : Except Fault (List (Nat × Nat)) :=
  document.flatPairs (document.nodes.size + 1) [] number

def itemsOf (document : Document) (number : Nat) : Except Fault (List Nat) :=
  match (document.node number).content with
  | .sequence items => .ok items
  | _ => .error (.unfit "expected a sequence node")

def onlyPair (document : Document) (number : Nat) : Except Fault (Nat × Nat) :=
  match (document.node number).content with
  | .mapping [pair] => .ok pair
  | .mapping _ => .error (.unfit "expected a single mapping item")
  | _ => .error (.unfit "expected a mapping of length 1")

/-- Checks the parts of a collection and gives those that are collections themselves. -/
def checkParts (document : Document) (number : Nat) : Except Fault (List Nat) := do
  let check (part : Nat) : Except Fault (List Nat) := do
    match ← document.atom? part with
    | some _ => return []
    | none => return [part]
  match (document.node number).tag with
  | .sequence => return (← (← document.itemsOf number).mapM check).flatten
  | .orderedMapping | .pairs =>
    let inner ← (← document.itemsOf number).mapM fun item => do
      let (key, value) ← document.onlyPair item
      return (← check key) ++ (← check value)
    return inner.flatten
  | _ =>
    match (document.node number).content with
    | .mapping _ =>
      let inner ← (← document.pairsOf number).mapM fun pair => do
        match ← document.keyAtom? pair.1 with
        | some _ => check pair.2
        | none => throw (.unfit "found unhashable key")
      return inner.flatten
    | _ => throw (.unfit "expected a mapping node")

/-- Checks collections, and then those within them. -/
def checkAll (document : Document) : Nat → List Nat → List Nat → Except Fault Unit
  | 0, _, _ => .ok ()
  | _, [], _ => .ok ()
  | fuel + 1, number :: waiting, seen => do
    let parts ← document.checkParts number
    let fresh := (parts.filter fun part => !seen.contains part).eraseDups
    checkAll document fuel (waiting ++ fresh) (seen ++ fresh)

def check (document : Document) (number : Nat) : Except Fault Unit := do
  match ← document.atom? number with
  | some _ => return ()
  | none => document.checkAll (document.nodes.size + 1) [number] [number]

/-- A field under a text key; other keys give none. -/
def field? (document : Document) (read : Nat → Value) (pair : Nat × Nat) :
    Option (String × Value) :=
  match document.keyAtom? pair.1 with
  | .ok (some (.text key)) => some (key, read pair.2)
  | _ => none

def value (document : Document) : Nat → Nat → Value
  | depth, number =>
    match document.atom? number with
    | .ok (some atom) => atom.toValue
    | .error _ => .other
    | .ok none =>
      match depth, (document.node number).tag with
      | 0, _ => .other
      | depth + 1, .sequence =>
        .list (((document.itemsOf number).toOption.getD []).map (value document depth))
      | _ + 1, .orderedMapping => .list (((document.itemsOf number).toOption.getD []).map fun _ => .other)
      | _ + 1, .pairs => .list (((document.itemsOf number).toOption.getD []).map fun _ => .other)
      | depth + 1, .mapping =>
        let fields := ((document.pairsOf number).toOption.getD []).filterMap
          (document.field? (value document depth))
        .map (fields.foldl (fun known field => Json.putField known field.1 field.2) [])
      | _, _ => .other

end Document

/-- How deep values are read. -/
def deepest : Nat := 4

/-- The value that a text stands for; a text without a document stands for nothing. -/
def read (text : String) : Except Fault Value := do
  let document ← Document.parse text
  match document.root with
  | none => return .null
  | some root =>
    document.check root
    return document.value deepest root

end ModuleAtlas.Yaml
