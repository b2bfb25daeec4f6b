import Mathlib.Data.List.Nodup

/-!
# Lists in the order of keys

Items sorted by a text that each of them has.  As long as the texts are
different, the order in which the items come makes no difference.
-/

namespace ModuleAtlas

variable {α : Type}

theorem sortTest_iff {left right : String} :
    (!decide (right < left)) = true ↔ left ≤ right := by
  rw [Bool.not_eq_true', decide_eq_false_iff_not, String.not_lt]

theorem pairwise_mergeSort_key
    (key : α → String) (items : List α) :
    (items.mergeSort fun left right => !(key right < key left)).Pairwise
      fun left right => key left ≤ key right := by
  have sorted :=
    @List.pairwise_mergeSort α (fun left right => !(key right < key left))
      (by
        intro first second third before after
        exact sortTest_iff.mpr
          (String.le_trans (sortTest_iff.mp before) (sortTest_iff.mp after)))
      (by
        intro first second
        rw [Bool.or_eq_true, sortTest_iff, sortTest_iff]
        exact String.le_total (key first) (key second))
      items
  exact sorted.imp fun test => sortTest_iff.mp test

/-- Where different items have different keys, the order in which they come
makes no difference to the sorted list. -/
theorem mergeSort_key_eq_of_perm
    (key : α → String) {items others : List α} (perm : items.Perm others)
    (separates : ∀ left ∈ items, ∀ right ∈ items, key left = key right → left = right) :
    (items.mergeSort fun left right => !(key right < key left)) =
      others.mergeSort fun left right => !(key right < key left) := by
  have sameItems :
      (items.mergeSort fun left right => !(key right < key left)).Perm
        (others.mergeSort fun left right => !(key right < key left)) :=
    (List.mergeSort_perm items _).trans (perm.trans (List.mergeSort_perm others _).symm)
  refine sameItems.eq_of_pairwise ?_ (pairwise_mergeSort_key key items)
    (pairwise_mergeSort_key key others)
  intro left right leftMember rightMember before after
  have leftListed : left ∈ items := List.mem_mergeSort.mp leftMember
  have rightListed : right ∈ items := perm.mem_iff.mpr (List.mem_mergeSort.mp rightMember)
  exact separates left leftListed right rightListed (String.le_antisymm before after)

theorem mergeSort_eq_of_perm
    {texts others : List String} (perm : texts.Perm others) :
    (texts.mergeSort fun left right => !(right < left)) =
      others.mergeSort fun left right => !(right < left) :=
  mergeSort_key_eq_of_perm id perm fun _ _ _ _ same => same

/-- Different keys are strictly increasing once they are sorted. -/
theorem pairwise_lt_mergeSort_key
    (key : α → String) {items : List α} (nodup : (items.map key).Nodup) :
    ((items.mergeSort fun left right => !(key right < key left)).map key).Pairwise
      (· < ·) := by
  have sorted := pairwise_mergeSort_key key items
  have distinct :
      ((items.mergeSort fun left right => !(key right < key left)).map key).Nodup :=
    (((List.mergeSort_perm items _).map key).nodup_iff).mpr nodup
  rw [List.pairwise_map]
  refine (sorted.and (List.pairwise_map.mp distinct)).imp ?_
  intro left right given
  obtain ⟨before, different⟩ := given
  by_contra notBefore
  exact different (String.le_antisymm before (String.not_lt.mp notBefore))

end ModuleAtlas
