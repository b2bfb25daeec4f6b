import Mathlib.Data.List.DropRight
import ModuleAtlas.Text.Letter

/-!
# Trimmed texts

What is left of a text without the blanks around it: nothing where the text is all
blank, and otherwise a text that begins and ends with letters that are none.
-/

namespace ModuleAtlas

namespace Text

section

variable {α : Type} {drop : α → Bool} {items : List α}

/-- Items of which some are kept begin, once trimmed, with the first that is kept. -/
theorem exists_trimWhile_eq_cons (kept : items.all drop = false) :
    ∃ first rest, trimWhile drop items = first :: rest ∧ drop first = false := by
  have trimmed : trimWhile drop items = (items.dropWhile drop).rdropWhile drop := rfl
  cases shape : items.dropWhile drop with
  | nil =>
      rw [List.dropWhile_eq_nil_iff, ← List.all_eq_true, kept] at shape
      cases shape
  | cons first rest =>
      have firstKept : drop first = false := by
        have head := List.head?_dropWhile_not drop items
        rw [shape] at head
        exact head
      rw [shape] at trimmed
      have someKept : (first :: rest).rdropWhile drop ≠ [] := by
        intro empty
        have dropped := List.rdropWhile_eq_nil_iff.mp empty first List.mem_cons_self
        rw [firstKept] at dropped
        cases dropped
      rcases List.prefix_cons_iff.mp (List.rdropWhile_prefix drop (l := first :: rest)) with
        empty | ⟨others, begins, _⟩
      · exact absurd empty someKept
      · exact ⟨first, others, trimmed.trans begins, firstKept⟩

theorem trimWhile_of_all (dropped : items.all drop = true) : trimWhile drop items = [] := by
  have none : items.dropWhile drop = [] :=
    List.dropWhile_eq_nil_iff.mpr (List.all_eq_true.mp dropped)
  rw [trimWhile, none]
  rfl

theorem trimWhile_eq_nil_iff : trimWhile drop items = [] ↔ items.all drop = true := by
  refine ⟨?_, trimWhile_of_all⟩
  intro empty
  cases kept : items.all drop with
  | true => rfl
  | false =>
      obtain ⟨first, rest, shape, _⟩ := exists_trimWhile_eq_cons kept
      rw [empty] at shape
      cases shape

theorem head?_trimWhile
    {first : α} (begins : (trimWhile drop items).head? = some first) : drop first = false := by
  cases kept : items.all drop with
  | true =>
      rw [trimWhile_of_all kept] at begins
      cases begins
  | false =>
      obtain ⟨_, rest, shape, firstKept⟩ := exists_trimWhile_eq_cons kept
      rw [shape] at begins
      cases begins
      exact firstKept

theorem getLast?_trimWhile
    {last : α} (ends : (trimWhile drop items).getLast? = some last) : drop last = false := by
  rw [trimWhile, dropEndWhile, List.getLast?_reverse] at ends
  have stopped := List.head?_dropWhile_not drop (items.dropWhile drop).reverse
  rw [ends] at stopped
  exact stopped

end

end Text

namespace RawText

theorem trim_eq_empty_iff {text : RawText} : text.trim = "" ↔ text.isAllBlank = true := by
  rw [trim, ← letters_inj, letters_ofLetters]
  exact Text.trimWhile_eq_nil_iff

/-- A text neither begins nor ends with a blank. -/
structure IsTrimmed (text : RawText) : Prop where
  first : ∀ letter, text.letters.head? = some letter → letter.satisfies Text.isBlank = false
  last : ∀ letter, text.letters.getLast? = some letter → letter.satisfies Text.isBlank = false

theorem isTrimmed_trim (text : RawText) : text.trim.IsTrimmed := by
  refine ⟨?_, ?_⟩
  · intro letter begins
    rw [trim, letters_ofLetters] at begins
    exact Text.head?_trimWhile begins
  · intro letter ends
    rw [trim, letters_ofLetters] at ends
    exact Text.getLast?_trimWhile ends

end RawText

end ModuleAtlas
