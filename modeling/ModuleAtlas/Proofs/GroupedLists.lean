import Mathlib.Data.List.Induction
import ModuleAtlas.Proofs.KeyedLists

/-!
# Lists in groups

Items that are put, one after another, to the others with their key.  The groups
come in the order of their first items, and each keeps the order of its items.
Sorting by a rank keeps the order within a rank as well.
-/

namespace ModuleAtlas

variable {α : Type}

/-! ## The items of a key -/

theorem nodup_eraseDups {κ : Type} [DecidableEq κ] : (keys : List κ) → keys.eraseDups.Nodup
  | [] => by
      simp
  | key :: rest => by
      rw [List.eraseDups_cons, List.nodup_cons]
      exact ⟨by simp, nodup_eraseDups _⟩
termination_by keys => keys.length
decreasing_by
  exact Nat.lt_succ_of_le (List.length_filter_le _ rest)

theorem findIdx_cons_of_key_ne
    {κ : Type} [DecidableEq κ] {key? : α → Option κ} {item : α} {name : κ}
    (other : key? item ≠ some name) (rest : List α) :
    (item :: rest).findIdx (fun item => key? item == some name) =
      rest.findIdx (fun item => key? item == some name) + 1 := by
  rw [List.findIdx_cons, beq_eq_false_iff_ne.mpr other, cond_false]

/-- Keys that are kept once come in the order of the first items that have them. -/
theorem pairwise_findIdx_eraseDups
    {κ : Type} [DecidableEq κ] (key? : α → Option κ) (items : List α) :
    (items.filterMap key?).eraseDups.Pairwise fun left right =>
      items.findIdx (fun item => key? item == some left) <
        items.findIdx fun item => key? item == some right := by
  -- The keys behind the first are those of the items that have another one.
  induction items generalizing key? with
  | nil =>
      simp
  | cons item rest inductionHypothesis =>
      cases own : key? item with
      | none =>
          have shifted (name : κ) := @findIdx_cons_of_key_ne α κ _ key? item name (by simp [own]) rest
          rw [List.filterMap_cons_none own]
          refine (inductionHypothesis key?).imp ?_
          intro left right before
          rw [shifted, shifted]
          exact Nat.succ_lt_succ before
      | some first =>
          have shifted {name : κ} (different : name ≠ first) :=
            @findIdx_cons_of_key_ne α κ _ key? item name (by simp [own, Ne.symm different]) rest
          let other? : α → Option κ := fun item => (key? item).filter fun key => !(key == first)
          have behind :
              ((rest.filterMap key?).filter fun key => !(key == first)) =
                rest.filterMap other? :=
            List.filter_filterMap ..
          have different : ∀ key ∈ (rest.filterMap other?).eraseDups, key ≠ first := by
            intro key member
            rw [List.mem_eraseDups, ← behind] at member
            simpa using (List.mem_filter.mp member).2
          have sameTest :
              ∀ key, key ≠ first →
                (fun item => other? item == some key) = fun item => key? item == some key := by
            intro key notFirst
            funext item
            rw [Bool.eq_iff_iff, beq_iff_eq, beq_iff_eq, Option.filter_eq_some_iff]
            simp [notFirst]
          rw [List.filterMap_cons_some own, List.eraseDups_cons, behind, List.pairwise_cons]
          refine ⟨?_, ?_⟩
          · intro key member
            rw [shifted (different key member), List.findIdx_cons, own, beq_self_eq_true, cond_true]
            exact Nat.succ_pos _
          · refine (inductionHypothesis other?).imp_of_mem ?_
            intro left right leftMember rightMember before
            have leftOther := different left leftMember
            have rightOther := different right rightMember
            rw [sameTest left leftOther, sameTest right rightOther] at before
            rw [shifted leftOther, shifted rightOther]
            exact Nat.succ_lt_succ before

/-- Items of different keys together are the items that have one of the keys. -/
theorem flatMap_filter_perm
    {κ : Type} [DecidableEq κ] (key : α → κ) (items : List α) {keys : List κ}
    (nodup : keys.Nodup) :
    (keys.flatMap fun name => items.filter fun item => key item == name).Perm
      (items.filter fun item => decide (key item ∈ keys)) := by
  induction keys with
  | nil =>
      simp
  | cons first rest inductionHypothesis =>
      obtain ⟨absent, restNodup⟩ := List.nodup_cons.mp nodup
      have split :=
        List.filter_append_perm (fun item => key item == first)
          (items.filter fun item => decide (key item ∈ first :: rest))
      have ofFirst :
          ((items.filter fun item => decide (key item ∈ first :: rest)).filter
              fun item => key item == first) =
            items.filter fun item => key item == first := by
        rw [List.filter_filter]
        apply List.filter_congr
        intro item _
        by_cases same : key item = first <;> simp [same]
      have ofRest :
          ((items.filter fun item => decide (key item ∈ first :: rest)).filter
              fun item => !(key item == first)) =
            items.filter fun item => decide (key item ∈ rest) := by
        rw [List.filter_filter]
        apply List.filter_congr
        intro item _
        by_cases same : key item = first
        · simp [same, absent]
        · simp [same]
      rw [ofFirst, ofRest] at split
      rw [List.flatMap_cons]
      exact ((inductionHypothesis restNodup).append_left _).trans split

/-- Groups of different keys that leave no item out are a partition. -/
theorem flatMap_filter_perm_of_forall_mem
    {κ : Type} [DecidableEq κ] {key : α → κ} {items : List α} {keys : List κ}
    (nodup : keys.Nodup) (covered : ∀ item ∈ items, key item ∈ keys) :
    (keys.flatMap fun name => items.filter fun item => key item == name).Perm items := by
  have all : (items.filter fun item => decide (key item ∈ keys)) = items := by
    rw [List.filter_eq_self]
    intro item member
    exact decide_eq_true (covered item member)
  have perm := flatMap_filter_perm key items nodup
  rwa [all] at perm

/-! ## Groups -/

/-- The items under each of their keys, the keys in the order in which they
first come. -/
def groupsBy (key : α → String) (items : List α) : List (String × List α) :=
  (items.map key).eraseDups.map fun name => (name, items.filter fun item => key item == name)

theorem keys_groupsBy (key : α → String) (items : List α) :
    (groupsBy key items).map (·.1) = (items.map key).eraseDups := by
  unfold groupsBy
  rw [List.map_map]
  exact List.map_id _

theorem nodup_keys_groupsBy (key : α → String) (items : List α) :
    ((groupsBy key items).map (·.1)).Nodup := by
  rw [keys_groupsBy]
  exact (nodup_eraseDups _)

theorem flatMap_groupsBy_perm (key : α → String) (items : List α) :
    ((groupsBy key items).flatMap (·.2)).Perm items := by
  unfold groupsBy
  rw [List.flatMap_map]
  apply flatMap_filter_perm_of_forall_mem (nodup_eraseDups _)
  intro item member
  exact List.mem_eraseDups.mpr (List.mem_map_of_mem member)

/-- What is found under a key are its items; there are none under other keys. -/
theorem lookup_groupsBy (key : α → String) (items : List α) (name : String) :
    ((groupsBy key items).lookup name).getD [] =
      items.filter fun item => key item == name := by
  by_cases known : name ∈ items.map key
  · have member :
        (name, items.filter fun item => key item == name) ∈ groupsBy key items :=
      List.mem_map_of_mem (List.mem_eraseDups.mpr known)
    rw [(lookup_eq_some_iff_mem (nodup_keys_groupsBy key items)).mpr member]
    rfl
  · have absent : (groupsBy key items).lookup name = none := by
      rw [Option.eq_none_iff_forall_ne_some]
      intro group found
      have listed := mem_keys_iff.mpr ⟨group, found⟩
      rw [keys_groupsBy, List.mem_eraseDups] at listed
      exact known listed
    have none : (items.filter fun item => key item == name) = [] := by
      rw [List.filter_eq_nil_iff]
      intro item member same
      exact known (beq_iff_eq.mp same ▸ List.mem_map_of_mem member)
    rw [absent, none]
    rfl

/-- The value under one of several different keys is replaced. -/
theorem Json.putField_map_of_mem
    {names : List String} {value : String → α} {key : String} {new : α}
    (nodup : names.Nodup) (known : key ∈ names) :
    putField (names.map fun name => (name, value name)) key new =
      names.map fun name => (name, if name = key then new else value name) := by
  induction names with
  | nil =>
      exact absurd known List.not_mem_nil
  | cons first rest inductionHypothesis =>
      obtain ⟨absent, restNodup⟩ := List.nodup_cons.mp nodup
      by_cases found : first = key
      · subst found
        simp only [List.map_cons, putField, if_true, List.cons.injEq, true_and]
        apply List.map_congr_left
        intro name member
        rw [if_neg]
        rintro rfl
        exact absent member
      · have later : key ∈ rest := (List.mem_cons.mp known).resolve_left (Ne.symm found)
        simp only [List.map_cons, putField, if_neg found, inductionHypothesis restNodup later]

/-- A further item joins the group of its key, or begins one. -/
theorem groupsBy_concat (key : α → String) (items : List α) (item : α) :
    Json.putField (groupsBy key items) (key item)
        (((groupsBy key items).lookup (key item)).getD [] ++ [item]) =
      groupsBy key (items ++ [item]) := by
  rw [lookup_groupsBy]
  by_cases known : key item ∈ items.map key
  · have sameKeys :
        ((items ++ [item]).map key).eraseDups = (items.map key).eraseDups := by
      have dropped : [key item].removeAll (items.map key) = [] := by
        rw [List.removeAll, List.filter_eq_nil_iff]
        simpa using known
      rw [List.map_append, List.eraseDups_append, List.map_singleton, dropped]
      simp
    unfold groupsBy
    rw [Json.putField_map_of_mem (nodup_eraseDups _) (List.mem_eraseDups.mpr known), sameKeys]
    apply List.map_congr_left
    intro name _
    by_cases same : name = key item
    · simp [same, List.filter_append]
    · simp [same, Ne.symm same, List.filter_append]
  · have newKey :
        ((items ++ [item]).map key).eraseDups = (items.map key).eraseDups ++ [key item] := by
      have kept : [key item].removeAll (items.map key) = [key item] := by
        rw [List.removeAll, List.filter_eq_self]
        simpa using known
      rw [List.map_append, List.eraseDups_append, List.map_singleton, kept]
      rfl
    have fresh : key item ∉ (groupsBy key items).map (·.1) := by
      rw [keys_groupsBy, List.mem_eraseDups]
      exact known
    rw [Json.putField_of_fresh fresh]
    unfold groupsBy
    rw [newKey, List.map_append]
    congr 1
    · apply List.map_congr_left
      intro name member
      have different : key item ≠ name := by
        rintro rfl
        exact known (List.mem_eraseDups.mp member)
      simp [different, List.filter_append]
    · simp [List.filter_append]

/-- Putting every item to the others with its key makes the groups. -/
theorem foldl_putField_eq_groupsBy (key : α → String) (items : List α) :
    items.foldl (fun groups item =>
        Json.putField groups (key item) ((groups.lookup (key item)).getD [] ++ [item])) [] =
      groupsBy key items := by
  induction items using List.reverseRecOn with
  | nil =>
      rfl
  | append_singleton items item inductionHypothesis =>
      rw [List.foldl_concat, inductionHypothesis, groupsBy_concat]

/-! ## Ranks -/

/-- Lists in the order of ranks that agree on every rank are the same. -/
theorem eq_of_filter_rank_eq
    {rank : α → Nat} {items others : List α}
    (sorted : items.Pairwise fun left right => rank left ≤ rank right)
    (othersSorted : others.Pairwise fun left right => rank left ≤ rank right)
    (agree : ∀ level, (items.filter fun item => rank item == level) =
      others.filter fun item => rank item == level) :
    items = others := by
  induction items generalizing others with
  | nil =>
      cases others with
      | nil =>
          rfl
      | cons other more =>
          have missing := agree (rank other)
          simp at missing
  | cons first rest inductionHypothesis =>
      cases others with
      | nil =>
          have missing := agree (rank first)
          simp at missing
      | cons other more =>
          obtain ⟨firstLeast, restSorted⟩ := List.pairwise_cons.mp sorted
          obtain ⟨otherLeast, moreSorted⟩ := List.pairwise_cons.mp othersSorted
          -- Each of the two heads is listed on the other side, so that neither
          -- has the greater rank.
          have firstListed : first ∈ other :: more := by
            have ranked : first ∈ (first :: rest).filter fun item => rank item == rank first := by
              simp
            rw [agree] at ranked
            exact List.mem_of_mem_filter ranked
          have otherListed : other ∈ first :: rest := by
            have ranked : other ∈ (other :: more).filter fun item => rank item == rank other := by
              simp
            rw [← agree] at ranked
            exact List.mem_of_mem_filter ranked
          have firstBelow : rank first ≤ rank other := by
            rcases List.mem_cons.mp otherListed with rfl | later
            · exact Nat.le_refl _
            · exact firstLeast other later
          have otherBelow : rank other ≤ rank first := by
            rcases List.mem_cons.mp firstListed with rfl | later
            · exact Nat.le_refl _
            · exact otherLeast first later
          have sameRank : rank other = rank first := Nat.le_antisymm otherBelow firstBelow
          have sameHead : first = other := by
            have heads := agree (rank first)
            simp only [List.filter_cons, sameRank, beq_self_eq_true, if_true,
              List.cons.injEq] at heads
            exact heads.1
          subst sameHead
          congr 1
          apply inductionHypothesis restSorted moreSorted
          intro level
          have tails := agree level
          rw [List.filter_cons, List.filter_cons] at tails
          split at tails
          · exact (List.cons.inj tails).2
          · exact tails

/-- Sorting keeps the order of items that it does not have to rearrange. -/
theorem filter_mergeSort_of_tied
    {test : α → α → Bool}
    (trans : ∀ first second third,
      test first second = true → test second third = true → test first third = true)
    (total : ∀ first second, (test first second || test second first) = true)
    {items : List α} {chosen : α → Bool}
    (tied : (items.filter chosen).Pairwise fun left right => test left right = true) :
    (items.mergeSort test).filter chosen = items.filter chosen := by
  have kept := (List.sublist_mergeSort trans total tied List.filter_sublist).filter chosen
  simp only [List.filter_filter, Bool.and_self] at kept
  have perm := (List.mergeSort_perm items test).filter chosen
  exact (kept.eq_of_length perm.length_eq.symm).symm

section

variable (rank : α → Nat)

theorem rankTest_trans (first second third : α) :
    decide (rank first ≤ rank second) = true → decide (rank second ≤ rank third) = true →
      decide (rank first ≤ rank third) = true := by
  intro before after
  exact decide_eq_true (Nat.le_trans (of_decide_eq_true before) (of_decide_eq_true after))

theorem rankTest_total (first second : α) :
    (decide (rank first ≤ rank second) || decide (rank second ≤ rank first)) = true := by
  simpa using Nat.le_total (rank first) (rank second)

theorem pairwise_mergeSort_rank (items : List α) :
    (items.mergeSort fun left right => decide (rank left ≤ rank right)).Pairwise
      fun left right => rank left ≤ rank right := by
  have sorted :=
    List.pairwise_mergeSort (rankTest_trans rank) (rankTest_total rank) items
  exact sorted.imp fun test => of_decide_eq_true test

theorem pairwise_filter_rank (items : List α) (level : Nat) :
    (items.filter fun item => rank item == level).Pairwise
      fun left right => rank left ≤ rank right := by
  rw [List.pairwise_filter]
  apply List.pairwise_of_forall
  intro left right leftRank rightRank
  rw [beq_iff_eq] at leftRank rightRank
  omega

/-- Sorting by a rank keeps the order of the items of one rank. -/
theorem filter_rank_mergeSort (items : List α) (level : Nat) :
    ((items.mergeSort fun left right => decide (rank left ≤ rank right)).filter
        fun item => rank item == level) =
      items.filter fun item => rank item == level := by
  apply filter_mergeSort_of_tied (rankTest_trans rank) (rankTest_total rank)
  exact (pairwise_filter_rank rank items level).imp fun below => decide_eq_true below

/-- The ranks one after another are what a stable sort makes of the items. -/
theorem flatMap_range_filter_rank (items : List α) (bound : Nat) :
    ((List.range bound).flatMap fun level => items.filter fun item => rank item == level) =
      (items.filter fun item => decide (rank item < bound)).mergeSort
        fun left right => decide (rank left ≤ rank right) := by
  induction bound with
  | zero =>
      simp
  | succ bound inductionHypothesis =>
      rw [List.range_succ, List.flatMap_append, inductionHypothesis, List.flatMap_singleton]
      apply eq_of_filter_rank_eq _ (pairwise_mergeSort_rank rank _)
      · intro level
        rw [List.filter_append, filter_rank_mergeSort, filter_rank_mergeSort,
          List.filter_filter, List.filter_filter, List.filter_filter]
        by_cases last : level = bound
        · subst last
          have none :
              (items.filter fun item =>
                (rank item == level) && decide (rank item < level)) = [] := by
            rw [List.filter_eq_nil_iff]
            intro item _
            simp only [Bool.and_eq_true, beq_iff_eq, decide_eq_true_eq]
            omega
          rw [none, List.nil_append]
          apply List.filter_congr
          intro item _
          rw [Bool.eq_iff_iff]
          simp only [Bool.and_eq_true, beq_iff_eq, decide_eq_true_eq]
          omega
        · have none :
              (items.filter fun item => (rank item == level) && (rank item == bound)) = [] := by
            rw [List.filter_eq_nil_iff]
            intro item _
            simp only [Bool.and_eq_true, beq_iff_eq]
            omega
          rw [none, List.append_nil]
          apply List.filter_congr
          intro item _
          rw [Bool.eq_iff_iff]
          simp only [Bool.and_eq_true, beq_iff_eq, decide_eq_true_eq]
          omega
      · rw [List.pairwise_append]
        refine ⟨pairwise_mergeSort_rank rank _, pairwise_filter_rank rank items bound, ?_⟩
        intro left leftMember right rightMember
        have below := (List.mem_filter.mp (List.mem_mergeSort.mp leftMember)).2
        have level := (List.mem_filter.mp rightMember).2
        rw [decide_eq_true_eq] at below
        rw [beq_iff_eq] at level
        omega

end

end ModuleAtlas
