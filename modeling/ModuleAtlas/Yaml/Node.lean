import ModuleAtlas.Yaml.Scalar
import ModuleAtlas.Yaml.Stream

/-!
# Nodes of a YAML document

The nodes of a document. Nodes are kept in a store and refer to each other by number, so that a part
of a document can stand in several places, even within itself.
-/

namespace ModuleAtlas.Yaml

inductive Content where
  | scalar (text : String)
  | sequence (items : List Nat)
  | mapping (pairs : List (Nat × Nat))
  deriving DecidableEq, Repr

structure Node where
  tag : Tag
  content : Content
  deriving DecidableEq, Repr

/-- A store of nodes, as far as it is built, and the tokens that are left. -/
structure Builder where
  lexemes : List Lexeme
  nodes : Array Node := #[]
  anchors : List (String × Nat) := []
  handles : List (String × String) := []
  /-- How many collections are open. -/
  depth : Nat := 0

/-- The deepest nesting of collections that is read. -/
def deepestNesting : Nat := 480

/-- Steps that build nodes. -/
abbrev Build := StateT Builder (Except Fault)

namespace Build

/-- The next token; at the end, the end itself. -/
def peek : Build Token := do
  return (((← get).lexemes.head?).map (·.token)).getD .streamEnd

def advance : Build Unit :=
  modify fun builder => { builder with lexemes := builder.lexemes.tail }

def fault {α : Type} (complaint : String) : Build α := do
  match (← get).lexemes.head? with
  | some lexeme => throw (.malformed complaint lexeme.line lexeme.column)
  | none => throw (.malformed complaint 0 0)

/-- Takes the next token if it is the given one. -/
def take? (token : Token) : Build Bool := do
  if (← peek) == token then
    advance
    return true
  else return false

def expect (token : Token) (complaint : String) : Build Unit := do
  if !(← take? token) then fault complaint

def add (node : Node) : Build Nat := do
  let number := (← get).nodes.size
  modify fun builder => { builder with nodes := builder.nodes.push node }
  return number

/-- Fills a node that was put into the store before its content was known. -/
def fill (number : Nat) (content : Content) : Build Unit :=
  modify fun builder =>
    { builder with nodes := builder.nodes.modify number fun node => { node with content := content } }

/-- A text that is not there. -/
def absent : Build Nat :=
  add ⟨.null, .scalar ""⟩

def name (anchor : Option String) (number : Nat) : Build Nat := do
  if let some text := anchor then
    modify fun builder => { builder with anchors := (text, number) :: builder.anchors }
  return number

def named (text : String) : Build Nat := do
  match (← get).anchors.lookup text with
  | some number => return number
  | none => fault "found undefined alias"

def resolveTag : Option String → String → Build String
  | none, suffix => return suffix
  | some handle, suffix => do
    match (← get).handles.lookup handle with
    | some start => return start ++ suffix
    | none => fault "found undefined tag handle"

/-- The name and the tag before a node, in either order. -/
def properties : Build (Option String × Option String) := do
  match ← peek with
  | .anchor anchor =>
    advance
    match ← peek with
    | .tag handle suffix =>
      advance
      return (some anchor, some (← resolveTag handle suffix))
    | _ => return (some anchor, none)
  | .tag handle suffix =>
    advance
    match ← peek with
    | .anchor anchor =>
      advance
      return (some anchor, some (← resolveTag handle suffix))
    | _ => return (none, some (← resolveTag handle suffix))
  | _ => return (none, none)

/-- A tag that says something. -/
def meaningful (tag : Option String) : Option String :=
  tag.filter (· != "!")

def collectionTag (tag : Option String) (usual : Tag) : Tag :=
  ((meaningful tag).map Tag.ofName).getD usual

/-- The tag of a text: what it looks like counts if it is plain or marked to be looked at. -/
def scalarTag (tag : Option String) (text : String) (isPlain : Bool) : Tag :=
  match meaningful tag with
  | some known => .ofName known
  | none => if isPlain || tag.isSome then Tag.ofText text else .text

/-- Builds the parts of a collection, one level further down. -/
def within {α : Type} (parts : Build α) : Build α := do
  let depth := (← get).depth
  if deepestNesting ≤ depth then throw .nesting
  modify fun builder => { builder with depth := depth + 1 }
  let built ← parts
  modify fun builder => { builder with depth := depth }
  return built

/-- Whether a token ends a key or a value in block style. -/
def endsBlockPart (token : Token) : Bool :=
  token == .key || token == .value || token == .blockEnd

mutual

/-- Builds a node. In block style it may be indented; where `loose` it may also be a sequence without
indentation. -/
def node : Nat → Bool → Bool → Build Nat
  | 0, _, _ => fault "the document is nested too deeply"
  | fuel + 1, inBlock, loose => do
    match ← peek with
    | .reference text =>
      advance
      named text
    | _ =>
      let (anchor, tag) ← properties
      if let some text := anchor then
        if ((← get).anchors.lookup text).isSome then fault "found duplicate anchor"
      let sequence (entries : Build (List Nat)) : Build Nat := do
        let number ← name anchor (← add ⟨collectionTag tag .sequence, .sequence []⟩)
        fill number (.sequence (← within entries))
        return number
      let mapping (entries : Build (List (Nat × Nat))) : Build Nat := do
        let number ← name anchor (← add ⟨collectionTag tag .mapping, .mapping []⟩)
        fill number (.mapping (← within entries))
        return number
      match ← peek with
      | .scalar text isPlain =>
        advance
        name anchor (← add ⟨scalarTag tag text isPlain, .scalar text⟩)
      | .bracketOpen =>
        advance
        sequence (bracketed fuel true)
      | .braceOpen =>
        advance
        mapping (braced fuel true)
      | other =>
        if loose && other == .entry then sequence (looseEntries fuel)
        else if inBlock && other == .sequenceStart then
          advance
          sequence (blockEntries fuel)
        else if inBlock && other == .mappingStart then
          advance
          mapping (blockPairs fuel)
        else if anchor.isSome || tag.isSome then
          name anchor (← add ⟨scalarTag tag "" true, .scalar ""⟩)
        else fault "expected the node content"

def blockEntries : Nat → Build (List Nat)
  | 0 => fault "the document is nested too deeply"
  | fuel + 1 => do
    if ← take? .entry then
      let following ← peek
      let item ←
        if following == .entry || following == .blockEnd then absent else node fuel true false
      return item :: (← blockEntries fuel)
    else
      expect .blockEnd "expected <block end>"
      return []

/-- The entries of a sequence without indentation. -/
def looseEntries : Nat → Build (List Nat)
  | 0 => fault "the document is nested too deeply"
  | fuel + 1 => do
    if ← take? .entry then
      let following ← peek
      let item ←
        if following == .entry || endsBlockPart following then absent else node fuel true false
      return item :: (← looseEntries fuel)
    else return []

/-- The keys and values of an indented mapping. -/
def blockPairs : Nat → Build (List (Nat × Nat))
  | 0 => fault "the document is nested too deeply"
  | fuel + 1 => do
    if (← peek) == .key then
      let key ← blockPart fuel .key
      let value ← blockPart fuel .value
      return (key, value) :: (← blockPairs fuel)
    else
      expect .blockEnd "expected <block end>"
      return []

/-- A key or a value of an indented mapping, behind its mark; without a mark there is none. -/
def blockPart : Nat → Token → Build Nat
  | 0, _ => fault "the document is nested too deeply"
  | fuel + 1, mark => do
    if ← take? mark then
      if endsBlockPart (← peek) then absent else node fuel true true
    else absent

def bracketed : Nat → Bool → Build (List Nat)
  | 0, _ => fault "the document is nested too deeply"
  | fuel + 1, isFirst => do
    if ← take? .bracketClose then return []
    if !isFirst then expect .comma "expected ',' or ']'"
    if ← take? .key then
      let number ← add ⟨.mapping, .mapping []⟩
      let ends (token : Token) : Bool := token == .comma || token == .bracketClose
      let pair ← within do
        let following ← peek
        let key ←
          if following == .value || ends following then absent else node fuel false false
        let value ←
          if ← take? .value then
            if ends (← peek) then absent else node fuel false false
          else absent
        return (key, value)
      fill number (.mapping [pair])
      return number :: (← bracketed fuel false)
    else if ← take? .bracketClose then return []
    else
      let item ← node fuel false false
      return item :: (← bracketed fuel false)

def braced : Nat → Bool → Build (List (Nat × Nat))
  | 0, _ => fault "the document is nested too deeply"
  | fuel + 1, isFirst => do
    if ← take? .braceClose then return []
    if !isFirst then expect .comma "expected ',' or '\x7d'"
    let ends (token : Token) : Bool := token == .comma || token == .braceClose
    if ← take? .key then
      let following ← peek
      let key ←
        if following == .value || ends following then absent else node fuel false false
      let value ←
        if ← take? .value then
          if ends (← peek) then absent else node fuel false false
        else absent
      return (key, value) :: (← braced fuel false)
    else if ← take? .braceClose then return []
    else
      let key ← node fuel false false
      let value ← absent
      return (key, value) :: (← braced fuel false)

end

/-- The handles that need no directive. -/
def usualHandles : List (String × String) := [("!", "!"), ("!!", "tag:yaml.org,2002:")]

def directives : Nat → Bool → Build Unit
  | 0, _ => return ()
  | fuel + 1, hasVersion => do
    match ← peek with
    | .directive (.version major) =>
      if hasVersion then fault "found duplicate YAML directive"
      if major != 1 then fault "found incompatible YAML document (version 1.* is required)"
      advance
      directives fuel true
    | .directive (.handle text start) =>
      if ((← get).handles.lookup text).isSome then fault "duplicate tag handle"
      modify fun builder => { builder with handles := (text, start) :: builder.handles }
      advance
      directives fuel hasVersion
    | .directive .other =>
      advance
      directives fuel hasVersion
    | _ => return ()

/-- Adds the handles that need no directive, behind those that were given. -/
def addUsualHandles : Build Unit :=
  modify fun builder => { builder with handles := builder.handles ++ usualHandles }

/-- Whether a document without content ends before a token. -/
def endsDocument : Token → Bool
  | .directive _ => true
  | .documentStart => true
  | .documentEnd => true
  | .streamEnd => true
  | _ => false

def documentEnds : Nat → Build Unit
  | 0 => return ()
  | fuel + 1 => do
    if ← take? .documentEnd then documentEnds fuel

def document (fuel : Nat) : Build (Option Nat) := do
  match ← peek with
  | .streamEnd => return none
  | first =>
    let root ←
      if first == .documentStart || endsDocument first && first != .documentEnd then do
        directives fuel false
        addUsualHandles
        expect .documentStart "expected '<document start>'"
        if endsDocument (← peek) then absent else node fuel true false
      else do
        addUsualHandles
        node fuel true false
    documentEnds fuel
    expect .streamEnd "expected a single document in the stream"
    return some root

end Build

structure Document where
  nodes : Array Node
  root : Option Nat
  deriving Repr

namespace Document

def parse (text : String) : Except Fault Document := do
  let tokens ← lexemes text
  let (root, builder) ← (Build.document (4 * tokens.length + 4)).run { lexemes := tokens }
  return ⟨builder.nodes, root⟩

def node (document : Document) (number : Nat) : Node :=
  (document.nodes[number]?).getD ⟨.null, .scalar ""⟩

end Document

end ModuleAtlas.Yaml
