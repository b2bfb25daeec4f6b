import Mathlib.Logic.Basic
import ModuleAtlas.Json.Limits

/-!
# Documents that can be spelled

Halves of pairs cannot be spelled in octets.  A document that is written over
several lines holds one exactly if one of its texts does.
-/

namespace ModuleAtlas

/-- No letter is a half of a pair. -/
def IsWhole (letters : List Letter) : Prop :=
  ∀ half, Letter.half half ∉ letters

section

variable {letters more : List Letter}

@[simp]
theorem isWhole_nil : IsWhole [] :=
  fun _ => List.not_mem_nil

@[simp]
theorem isWhole_char_cons_iff {character : Char} :
    IsWhole (.char character :: letters) ↔ IsWhole letters := by
  simp [IsWhole]

theorem not_isWhole_half_cons (half : Half) : ¬IsWhole (.half half :: letters) :=
  fun whole => whole half List.mem_cons_self

@[simp]
theorem isWhole_append_iff : IsWhole (letters ++ more) ↔ IsWhole letters ∧ IsWhole more := by
  simp [IsWhole, forall_and]

@[simp]
theorem isWhole_map_char (characters : List Char) : IsWhole (characters.map .char) := by
  intro half member
  obtain ⟨_, _, same⟩ := List.mem_map.mp member
  cases same

/-- A text can be spelled exactly if it holds no half. -/
theorem RawText.isProper_iff {text : RawText} : text.isProper = true ↔ IsWhole text.letters := by
  cases text with
  | proper text =>
      exact ⟨fun _ => isWhole_map_char text.toList, fun _ => rfl⟩
  | broken front half behind =>
      have refused : (broken front half behind).isProper = false := rfl
      rw [refused, RawText.letters, isWhole_append_iff]
      simp [not_isWhole_half_cons half]

end

namespace Json

/-! ## Written documents -/

theorem isWhole_spell_iff {letter : Letter} : IsWhole (spell letter) ↔ IsWhole [letter] := by
  cases letter with
  | char character => simp [spell]
  | half half => rfl

theorem isWhole_flatMap_spell_iff {letters : List Letter} :
    IsWhole (letters.flatMap spell) ↔ IsWhole letters := by
  induction letters with
  | nil =>
      rfl
  | cons letter letters inductionHypothesis =>
      rw [List.flatMap_cons, isWhole_append_iff, isWhole_spell_iff, inductionHypothesis,
        ← isWhole_append_iff, List.singleton_append]

theorem isWhole_quoted_iff {text : RawText} : IsWhole (quoted text) ↔ text.isProper = true := by
  simp [quoted, isWhole_flatMap_spell_iff, RawText.isProper_iff]

theorem isWhole_plainLetters (text : String) : IsWhole (plainLetters text) :=
  isWhole_map_char text.toList

theorem isWhole_newLine (level : Nat) : IsWhole (newLine level) := by
  intro half member
  simp [newLine] at member

mutual

/-- What is written of a document holds a half exactly if one of its texts does. -/
theorem isWhole_prettyAt_iff (level : Nat) (document : Json) :
    IsWhole (prettyAt level document) ↔ document.texts.all RawText.isProper = true := by
  cases document with
  | null => simp [prettyAt, texts, isWhole_plainLetters]
  | bool value => simp [prettyAt, texts, isWhole_plainLetters]
  | int value => simp [prettyAt, texts, isWhole_plainLetters]
  | float value => simp [prettyAt, texts, isWhole_plainLetters]
  | string value => simp [prettyAt, texts, isWhole_quoted_iff]
  | array items =>
      cases items with
      | nil => simp [prettyAt, texts, textsOfItems]
      | cons first rest =>
          have firstWhole := isWhole_prettyAt_iff (level + 1) first
          have restWhole := isWhole_prettyItems_iff (level + 1) rest
          simp [prettyAt, texts, textsOfItems, isWhole_newLine, firstWhole, restWhole]
  | object fields =>
      cases fields with
      | nil => simp [prettyAt, texts, textsOfFields]
      | cons field rest =>
          obtain ⟨key, value⟩ := field
          have valueWhole := isWhole_prettyAt_iff (level + 1) value
          have restWhole := isWhole_prettyFields_iff (level + 1) rest
          simp [prettyAt, texts, textsOfFields, isWhole_newLine, isWhole_quoted_iff, valueWhole,
            restWhole]

theorem isWhole_prettyItems_iff (level : Nat) (items : List Json) :
    IsWhole (prettyItems level items) ↔ (textsOfItems items).all RawText.isProper = true := by
  cases items with
  | nil => simp [prettyItems, textsOfItems]
  | cons item rest =>
      have itemWhole := isWhole_prettyAt_iff level item
      have restWhole := isWhole_prettyItems_iff level rest
      simp [prettyItems, textsOfItems, isWhole_newLine, itemWhole, restWhole]

theorem isWhole_prettyFields_iff (level : Nat) (fields : List (RawText × Json)) :
    IsWhole (prettyFields level fields) ↔ (textsOfFields fields).all RawText.isProper = true := by
  cases fields with
  | nil => simp [prettyFields, textsOfFields]
  | cons field rest =>
      obtain ⟨key, value⟩ := field
      have valueWhole := isWhole_prettyAt_iff level value
      have restWhole := isWhole_prettyFields_iff level rest
      simp [prettyFields, textsOfFields, isWhole_newLine, isWhole_quoted_iff, valueWhole,
        restWhole]

end

/-- A document can be spelled exactly if its texts can. -/
theorem isProper_pretty (document : Json) : document.pretty.isProper = document.isProper := by
  rw [Bool.eq_iff_iff, RawText.isProper_iff, pretty, RawText.letters_ofLetters,
    isWhole_prettyAt_iff]
  rfl

end Json

end ModuleAtlas
