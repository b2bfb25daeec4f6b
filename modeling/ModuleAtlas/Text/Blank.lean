/-!
# Blanks and lines

Blank characters, trimming and the cutting of text into lines.
-/

namespace ModuleAtlas.Text

/-- Blank characters: the control characters that move the cursor or separate records, and every
space of the character set. -/
def isBlank (character : Char) : Bool :=
  let point := character.toNat
  (9 ≤ point && point ≤ 13) || (28 ≤ point && point ≤ 32) || point == 0x85 || point == 0xA0
    || point == 0x1680 || (0x2000 ≤ point && point ≤ 0x200A) || point == 0x2028
    || point == 0x2029 || point == 0x202F || point == 0x205F || point == 0x3000

/-- The list without the items at its end that satisfy `drop`. -/
def dropEndWhile {α : Type} (drop : α → Bool) (items : List α) : List α :=
  (items.reverse.dropWhile drop).reverse

/-- The list without the items at either end that satisfy `drop`. -/
def trimWhile {α : Type} (drop : α → Bool) (items : List α) : List α :=
  dropEndWhile drop (items.dropWhile drop)

def trimList (characters : List Char) : List Char :=
  trimWhile isBlank characters

def trim (text : String) : String :=
  String.ofList (trimList text.toList)

def isAllBlank (text : String) : Bool :=
  text.toList.all isBlank

/-- Characters that end a line. -/
def isLineEnd (character : Char) : Bool :=
  let point := character.toNat
  (10 ≤ point && point ≤ 13) || (28 ≤ point && point ≤ 30) || point == 0x85 || point == 0x2028
    || point == 0x2029

/-- Lines of `characters`, where `pending` holds the line begun so far, last character first, and
`begun` says whether a line is under way. -/
def linesFrom (pending : List Char) (begun : Bool) : List Char → List (List Char)
  | [] => if begun then [pending.reverse] else []
  | '\r' :: '\n' :: rest => pending.reverse :: linesFrom [] false rest
  | character :: rest =>
    if isLineEnd character then pending.reverse :: linesFrom [] false rest
    else linesFrom (character :: pending) true rest

/-- The lines of a text, without their ends; a final line end opens no further line. -/
def lines (text : String) : List String :=
  (linesFrom [] false text.toList).map String.ofList

/-- The characters with one and the same end for all lines. -/
def unifyLineEndsList : List Char → List Char
  | '\r' :: '\n' :: rest => '\n' :: unifyLineEndsList rest
  | '\r' :: rest => '\n' :: unifyLineEndsList rest
  | character :: rest => character :: unifyLineEndsList rest
  | [] => []

def unifyLineEnds (text : String) : String :=
  String.ofList (unifyLineEndsList text.toList)

/-- Whether `text` holds `part` as a run of consecutive characters. -/
def holds (part : List Char) : List Char → Bool
  | [] => part.isEmpty
  | character :: rest => part.isPrefixOf (character :: rest) || holds part rest

def contains (text part : String) : Bool :=
  holds part.toList text.toList

def beginsWith (text part : String) : Bool :=
  part.toList.isPrefixOf text.toList

def endsWith (text part : String) : Bool :=
  part.toList.isSuffixOf text.toList

/-- The pieces between the occurrences of `separator`; one more than there are occurrences. -/
def splitList (separator : Char) : List Char → List (List Char)
  | [] => [[]]
  | character :: rest =>
    let pieces := splitList separator rest
    if character = separator then [] :: pieces
    else
      match pieces with
      | [] => [[character]]
      | piece :: others => (character :: piece) :: others

/-- The pieces of a text between the occurrences of `separator`. -/
def split (separator : Char) (text : String) : List String :=
  (splitList separator text.toList).map String.ofList

def replaceChar (old new : Char) (text : String) : String :=
  String.ofList (text.toList.map fun character => if character = old then new else character)

def take (count : Nat) (text : String) : String :=
  String.ofList (text.toList.take count)

def drop (count : Nat) (text : String) : String :=
  String.ofList (text.toList.drop count)

end ModuleAtlas.Text
