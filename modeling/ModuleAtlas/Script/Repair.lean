import ModuleAtlas.Script.Fault
import ModuleAtlas.Script.Parse

/-!
# Mending of scripts

What is wrong with a script, told by the cheapest way to mend it: one token is put in that is missing,
or tokens in a row are taken out that are unexpected. Either happens at the place where parsing got
stuck.
-/

namespace ModuleAtlas.Script

/-! ## Tokens -/

/-- Marks of more than one character, the longer ones first. -/
def longMarks : List String :=
  [">>>=", "...", "===", "!==", "**=", "<<=", ">>=", ">>>", "&&=", "||=", "??=", "=>", "==", "!=",
    "<=", ">=", "&&", "||", "??", "?.", "++", "--", "+=", "-=", "*=", "/=", "%=", "&=", "|=", "^=",
    "<<", ">>", "**", "</", "/>"]

/-- The cursor behind the token that stands at a cursor. -/
def tokenEnd (fuel : Nat) (cursor : Cursor) : Cursor :=
  match cursor.rest with
  | [] => cursor
  | first :: rest =>
    let number := numberLength cursor.rest
    if let some count := name? cursor.rest then cursor.advance count
    else if number ≠ 0 then cursor.advance number
    else if first == '"' || first == '\'' then
      (stringEnd? first fuel ⟨rest, cursor.offset + 1⟩).getD (cursor.advance 1)
    else
      match longMarks.find? fun mark => mark.toList.isPrefixOf cursor.rest with
      | some mark => cursor.advance mark.length
      | none => cursor.advance 1

/-- A token, by the octets from which and before which it stands. -/
structure Span where
  start : Nat
  stop : Nat
  /-- Whether it is the first one of its line. -/
  beginsLine : Bool := false
  deriving DecidableEq, Repr

/-- The tokens from a cursor on. The first argument bounds their number. -/
def tokensFrom : Nat → Bool → Cursor → List Span
  | 0, _, _ => []
  | fuel + 1, first, cursor =>
    let start := skipGap false (fuel + 1) cursor
    let beginsLine := first || (cursor.rest.takeWhile isSpace).contains '\n'
    if start.rest.isEmpty then []
    else
      let stop := tokenEnd (fuel + 1) start
      ⟨start.offset, stop.offset, beginsLine⟩ :: tokensFrom fuel false stop

def tokens (text : String) : List Span :=
  tokensFrom (text.length + 1) true (Cursor.ofText text)

/-- The text before an octet, and the text from there on. -/
def cut : Nat → List Char → List Char × List Char
  | _, [] => ([], [])
  | octets, character :: rest =>
    if octets < character.utf8Size then ([], character :: rest)
    else
      let (before, behind) := cut (octets - character.utf8Size) rest
      (character :: before, behind)

/-! ## Repairs -/

/-- A way to mend a script. -/
inductive Repair where
  /-- Puts in a token of a kind, with the given spelling, before an octet. -/
  | insert (octet : Nat) (kind spelling : String)
  /-- Takes out tokens in a row, by the octets that they take and their number. -/
  | remove (start stop count : Nat)
  deriving DecidableEq, Repr

namespace Repair

/-- A blank between tokens at which no statement ends. -/
def firmBlank : Char := '\u00a0'

/-- The mended script. No statement ends at the place of the repair by the end of a line alone. -/
def apply (characters : List Char) : Repair → List Char
  | .insert octet _ spelling =>
    let (before, behind) := cut octet characters
    before ++ (' ' :: spelling.toList) ++ firmBlank :: behind
  | .remove start stop _ =>
    let (before, behind) := cut start characters
    before ++ firmBlank :: (cut (stop - start) behind).2

def lost (characters : List Char) : Repair → List Char
  | .insert _ _ _ => []
  | .remove start stop _ => (cut (stop - start) (cut start characters).2).1

/-- What a repair costs: every repair something, every token that is taken out, and every octet and
line of it. -/
def cost (characters : List Char) (repair : Repair) : Nat :=
  match repair with
  | .insert _ _ _ => 610
  | .remove start stop count =>
    500 + (stop - start) + 30 * ((repair.lost characters).filter (· == '\n')).length + 100 * count

/-- The tokens that may be missing, with their kinds. -/
def insertable : List (String × String) :=
  [("identifier", "x"), ("\x7d", "\x7d"), (";", ";"), (")", ")"), ("]", "]")]

/-- The most tokens before the place of a fault that are taken out. -/
def mostBefore : Nat := 16

/-- The most tokens behind the place of a fault that are taken out, unless all are. -/
def mostBehind : Nat := 3

/-- The most lines before the place of a fault with which everything is taken out. -/
def mostLines : Nat := 24

/-- The repair that takes out tokens in a row, if there are any. -/
def removal? (lost : List Span) : Option Repair :=
  match lost.head?, lost.getLast? with
  | some first, some last => some (.remove first.start last.stop lost.length)
  | _, _ => none

/-- The repairs that take out tokens around a fault, given the tokens before it and those from it
on. -/
def omissions (before behind : List Span) : List Repair :=
  let starts := List.range (min mostBefore before.length + 1)
  let stops := List.range (min mostBehind behind.length + 1)
  starts.flatMap fun back =>
    stops.filterMap fun ahead =>
      removal? (before.drop (before.length - back) ++ behind.take ahead)

/-- The lists of tokens that begin with the first one of a line, the latest first. -/
def lineTails : List Span → List (List Span)
  | [] => []
  | token :: rest =>
    if token.beginsLine then lineTails rest ++ [token :: rest] else lineTails rest

/-- The repairs that take out everything from a token or the start of a line on. -/
def truncations (before behind : List Span) : List Repair :=
  let near := (List.range (min mostBefore before.length + 1)).map fun back =>
    before.drop (before.length - back)
  let far := (lineTails before).take mostLines
  (near ++ far ++ [before]).filterMap fun lost => removal? (lost ++ behind)

/-- The repairs that put in a token behind the last one before a fault. -/
def insertions (before : List Span) : List Repair :=
  let octet := (before.getLast?.map (·.stop)).getD 0
  insertable.map fun token => .insert octet token.1 token.2

def place : Repair → Nat
  | .insert octet _ _ => octet
  | .remove start _ _ => start

structure Offer where
  repair : Repair
  cost : Nat

/-- Whether one repair is to be tried before another: the cheaper first, of equals the later. -/
def Offer.precedes (left right : Offer) : Bool :=
  left.cost < right.cost
    || (left.cost == right.cost && right.repair.place ≤ left.repair.place)

/-! ## What a repair makes of a script -/

mutual

def leaves : Tree → List Tree
  | ⟨kind, start, stop, named, field, missing, point, []⟩ =>
    [⟨kind, start, stop, named, field, missing, point, []⟩]
  | ⟨_, _, _, _, _, _, _, child :: rest⟩ => leaves child ++ leavesOf rest

def leavesOf : List Tree → List Tree
  | [] => []
  | tree :: rest => leaves tree ++ leavesOf rest

end

mutual

/-- Whether a node of a kind ends before an octet in a tree. -/
def endsAt (kind : String) (octet : Nat) : Tree → Bool
  | ⟨known, _, stop, _, _, _, _, children⟩ =>
    (known == kind && stop == octet) || anyEndsAt kind octet children

/-- Whether a node of a kind ends before an octet in one of the trees. -/
def anyEndsAt (kind : String) (octet : Nat) : List Tree → Bool
  | [] => false
  | tree :: rest => endsAt kind octet tree || anyEndsAt kind octet rest

end

/-- How the words before an octet are understood. -/
def understood (octet : Nat) (tree : Tree) : List (String × Nat) :=
  ((leaves tree).filter fun leaf => leaf.stop ≤ octet).map fun leaf => (leaf.kind, leaf.start)

/-- The tree of the script that a repair makes, if it parses. A name is put in only where any
expression fits. A class may end a script whatever it is part of. -/
def treeOf? (dialect : Dialect) (characters : List Char) (repair : Repair) : Option Tree :=
  let parsed (mended : List Char) : Option Tree := (tree? dialect (String.ofList mended)).toOption
  match repair with
  | .insert octet "identifier" spelling =>
    (parsed (apply characters (.insert octet "this" "this"))).bind fun _ =>
      parsed (apply characters (.insert octet "identifier" spelling))
  | .insert octet "\x7d" spelling =>
    let (before, behind) := cut octet characters
    (parsed (repair.apply characters)).or
      ((parsed (before ++ spelling.toList ++ behind)).filter (endsAt "class_body" (octet + 1)))
  | _ => parsed (repair.apply characters)

/-- Whether a repair makes a script that understands what stands before the repair as it is understood
where something is put in. -/
def works (dialect : Dialect) (characters : List Char) (insertions : List Repair)
    (repair : Repair) : Bool :=
  match repair, repair.treeOf? dialect characters with
  | _, none => false
  | .insert _ _ _, some _ => true
  | .remove start _ _, some tree =>
    match insertions.findSome? (treeOf? dialect characters) with
    | some other => understood start tree == understood start other
    | none => true

def cheapest? (dialect : Dialect) (text : String) (stuck : Nat) : Option Repair :=
  let characters := text.toList
  let all := tokens text
  let before := all.takeWhile fun token => token.stop ≤ stuck
  let behind := all.drop before.length
  let insertions := insertions before
  let repairs := insertions ++ omissions before behind ++ truncations before behind
  let offers := repairs.map fun repair => (⟨repair, repair.cost characters⟩ : Offer)
  ((offers.mergeSort Offer.precedes).map (·.repair)).find? (works dialect characters insertions)

/-! ## Faults -/

/-- The line, from one, and the column, in octets from zero, behind characters. -/
def lineColumn (characters : List Char) : Nat × Nat :=
  ((characters.filter (· == '\n')).length + 1,
    (String.ofList (characters.reverse.takeWhile (· != '\n'))).utf8ByteSize)

def fault (characters : List Char) (repair : Repair) : SyntaxFault :=
  let (line, column) := lineColumn (cut repair.place characters).1
  match repair with
  | .insert _ kind _ => ⟨.missing kind, line, column⟩
  | .remove _ _ _ =>
    let snippet := SyntaxFault.snippet (String.ofList (repair.lost characters))
    ⟨.unexpected snippet, line, column⟩

/-- The fault of a script that got stuck at an octet. One that no repair mends is unexpected from
there on. -/
def faultAt (dialect : Dialect) (text : String) (octet : Nat) : SyntaxFault :=
  let repair := (cheapest? dialect text octet).getD (.remove octet text.utf8ByteSize 0)
  repair.fault text.toList

end Repair

end ModuleAtlas.Script
