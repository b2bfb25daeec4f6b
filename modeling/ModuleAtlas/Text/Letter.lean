import ModuleAtlas.Text.Blank
import ModuleAtlas.Text.Quoted

/-!
# Texts with halves of pairs

Some notations spell a character beyond the first plane as a pair of halves. A half that stands alone is
no character, but a text that was read from such a notation may hold it.
-/

namespace ModuleAtlas

/-- A half of a pair that stands alone. -/
structure Half where
  unit : Nat
  isHalf : 0xD800 ≤ unit ∧ unit < 0xE000
  deriving DecidableEq, Repr

/-- What a text is made of. -/
inductive Letter where
  | char (value : Char)
  | half (value : Half)
  deriving DecidableEq, Repr

namespace Letter

instance : Coe Char Letter := ⟨.char⟩

/-- Whether a letter is a character with a property. Halves have none. -/
def satisfies (test : Char → Bool) : Letter → Bool
  | .char value => test value
  | .half _ => false

/-- The characters with a property at the start of some letters. -/
def run (test : Char → Bool) : List Letter → List Char
  | .char value :: rest => if test value then value :: run test rest else []
  | _ => []

/-- A run goes on to the first letter that is no character with the property. -/
theorem run_append
    {test : Char → Bool} {characters : List Char} {rest : List Letter}
    (all : ∀ character ∈ characters, test character = true)
    (stops : ∀ letter, rest.head? = some letter → letter.satisfies test = false) :
    run test (characters.map .char ++ rest) = characters := by
  induction characters with
  | nil =>
      cases rest with
      | nil => rfl
      | cons letter rest =>
          have stopped := stops letter rfl
          cases letter with
          | char value => simp_all [run, satisfies]
          | half value => rfl
  | cons character characters inductionHypothesis =>
      rw [List.forall_mem_cons] at all
      rw [List.map_cons, List.cons_append, run, if_pos all.1, inductionHypothesis all.2]

/-- The character that is shown for a letter; for a half, the one that stands for what cannot be
shown. -/
def shown : Letter → Char
  | .char value => value
  | .half _ => '\uFFFD'

end Letter

/-- A text that may hold halves. Where it does, the first of them parts it. -/
inductive RawText where
  | proper (text : String)
  | broken (front : String) (half : Half) (behind : List Letter)
  deriving DecidableEq, Repr

namespace RawText

instance : Coe String RawText := ⟨.proper⟩

instance : Inhabited RawText := ⟨.proper ""⟩

def letters : RawText → List Letter
  | .proper text => text.toList.map .char
  | .broken front half behind => front.toList.map .char ++ .half half :: behind

@[simp]
theorem letters_proper (text : String) : (proper text).letters = text.toList.map .char :=
  rfl

/-- The text of letters behind characters that were read before, last character first. -/
def ofLettersBehind (taken : List Char) : List Letter → RawText
  | [] => .proper (String.ofList taken.reverse)
  | .char value :: rest => ofLettersBehind (value :: taken) rest
  | .half value :: rest => .broken (String.ofList taken.reverse) value rest

def ofLetters (letters : List Letter) : RawText :=
  ofLettersBehind [] letters

theorem letters_ofLettersBehind (taken : List Char) (letters : List Letter) :
    (ofLettersBehind taken letters).letters = taken.reverse.map .char ++ letters := by
  induction letters generalizing taken with
  | nil =>
      simp [ofLettersBehind, RawText.letters]
  | cons letter rest inductionHypothesis =>
      cases letter with
      | char value => simp [ofLettersBehind, inductionHypothesis]
      | half value => simp [ofLettersBehind, RawText.letters]

@[simp]
theorem letters_ofLetters (letters : List Letter) : (ofLetters letters).letters = letters :=
  letters_ofLettersBehind [] letters

theorem ofLettersBehind_append (taken front : List Char) (behind : List Letter) :
    ofLettersBehind taken (front.map .char ++ behind) =
      ofLettersBehind (front.reverse ++ taken) behind := by
  induction front generalizing taken with
  | nil =>
      rfl
  | cons character front inductionHypothesis =>
      rw [List.map_cons, List.cons_append, ofLettersBehind, inductionHypothesis]
      simp

@[simp]
theorem ofLetters_letters (text : RawText) : ofLetters text.letters = text := by
  unfold ofLetters
  cases text with
  | proper text =>
      have read := ofLettersBehind_append [] text.toList []
      simpa [letters, ofLettersBehind] using read
  | broken front half behind =>
      have read := ofLettersBehind_append [] front.toList (.half half :: behind)
      simpa [letters, ofLettersBehind] using read

theorem letters_inj {text other : RawText} : text.letters = other.letters ↔ text = other := by
  refine ⟨fun same => ?_, congrArg letters⟩
  rw [← ofLetters_letters text, same, ofLetters_letters]

/-- The text without halves, if that is what it is. -/
def proper? : RawText → Option String
  | .proper text => some text
  | .broken _ _ _ => none

/-- Whether the text holds no half. Only such a text can be spelled in octets. -/
def isProper (text : RawText) : Bool :=
  text.proper?.isSome

/-- The text as it is shown where halves cannot be. -/
def shown : RawText → String
  | .proper text => text
  | .broken front half behind =>
    front ++ String.ofList ((Letter.half half :: behind).map Letter.shown)

instance : Append RawText := ⟨fun text other => ofLetters (text.letters ++ other.letters)⟩

@[simp]
theorem letters_append (text other : RawText) :
    (text ++ other).letters = text.letters ++ other.letters :=
  letters_ofLetters _

/-- The texts one behind the other, with a separator between them. -/
def join (separator : RawText) (texts : List RawText) : RawText :=
  ofLetters (separator.letters.intercalate (texts.map letters))

def trim (text : RawText) : RawText :=
  ofLetters (Text.trimWhile (Letter.satisfies Text.isBlank) text.letters)

def isAllBlank (text : RawText) : Bool :=
  text.letters.all (Letter.satisfies Text.isBlank)

def escapeLetter (quote : Char) : Letter → List Char
  | .char value => Text.Quoted.escape quote value
  | .half value => '\\' :: 'u' :: Text.Quoted.hexDigits 4 value.unit

def quote (text : RawText) : String :=
  let quote := Text.Quoted.quoteFor (text.letters.map Letter.shown)
  String.ofList (quote :: (text.letters.flatMap (escapeLetter quote) ++ [quote]))

end RawText

end ModuleAtlas
