import Mathlib.Data.List.Nodup
import Mathlib.Tactic.Tauto
import ModuleAtlas.Json.Value

/-!
# Lists with keys

Laws of lists in which a key has at most one value: looking a key up, and
putting a value under it.  Objects, tables, adjacencies and groups all are
such lists.
-/

namespace ModuleAtlas

variable {κ α : Type} [DecidableEq κ]

/-- The keys of a list are those that can be looked up. -/
theorem mem_keys_iff {fields : List (κ × α)} {key : κ} :
    key ∈ fields.map (·.1) ↔ ∃ value, fields.lookup key = some value := by
  rw [← Option.isSome_iff_exists, List.lookup_isSome_iff, List.mem_map]
  constructor
  · intro given
    obtain ⟨field, member, equal⟩ := given
    exact ⟨field, member, by simp [equal]⟩
  · intro given
    obtain ⟨field, member, equal⟩ := given
    exact ⟨field, member, (by simpa using equal : key = field.1).symm⟩

/-- Where no key comes twice, what can be looked up is what is listed. -/
theorem lookup_eq_some_iff_mem
    {fields : List (κ × α)} (nodup : (fields.map (·.1)).Nodup)
    {key : κ} {value : α} :
    fields.lookup key = some value ↔ (key, value) ∈ fields := by
  induction fields with
  | nil =>
      simp
  | cons field rest inductionHypothesis =>
      obtain ⟨known, old⟩ := field
      obtain ⟨absent, restNodup⟩ := List.nodup_cons.mp nodup
      by_cases same : key = known
      · subst same
        have notLater : (key, value) ∉ rest := by
          intro later
          exact absent (List.mem_map.mpr ⟨_, later, rfl⟩)
        simp [notLater, eq_comm]
      · simp only [List.lookup_cons, beq_eq_false_iff_ne.mpr same, List.mem_cons,
          Prod.mk.injEq, same, false_and, false_or]
        exact inductionHypothesis restNodup

/-- Where no key comes twice, the order of a list makes no difference to what
is looked up. -/
theorem lookup_eq_of_perm
    {fields others : List (κ × α)} (perm : fields.Perm others)
    (nodup : (fields.map (·.1)).Nodup) (key : κ) :
    fields.lookup key = others.lookup key := by
  have othersNodup : (others.map (·.1)).Nodup := ((perm.map (·.1)).nodup_iff).mp nodup
  apply Option.ext
  intro value
  rw [lookup_eq_some_iff_mem nodup, lookup_eq_some_iff_mem othersNodup]
  exact perm.mem_iff

namespace Json

/-- The value put under a key is found there, and nothing else changes. -/
theorem lookup_putField
    (fields : List (κ × α)) (key other : κ) (value : α) :
    (putField fields key value).lookup other =
      if other = key then some value else fields.lookup other := by
  induction fields with
  | nil =>
      by_cases same : other = key
      · simp [putField, same]
      · simp [putField, List.lookup_cons, beq_eq_false_iff_ne.mpr same, same]
  | cons field rest inductionHypothesis =>
      obtain ⟨known, old⟩ := field
      by_cases found : known = key
      · subst found
        by_cases same : other = known
        · simp [putField, same]
        · simp [putField, List.lookup_cons, beq_eq_false_iff_ne.mpr same, same]
      · by_cases same : other = known
        · subst same
          simp [putField, found]
        · simp only [putField, if_neg found, List.lookup_cons,
            beq_eq_false_iff_ne.mpr same]
          exact inductionHypothesis

/-- A known key keeps its place, and a new one comes last. -/
theorem keys_putField
    (fields : List (κ × α)) (key : κ) (value : α) :
    (putField fields key value).map (·.1) =
      if key ∈ fields.map (·.1) then fields.map (·.1)
      else fields.map (·.1) ++ [key] := by
  induction fields with
  | nil =>
      simp [putField]
  | cons field rest inductionHypothesis =>
      obtain ⟨known, old⟩ := field
      by_cases found : known = key
      · simp [putField, found]
      · have other : key ≠ known := Ne.symm found
        simp only [putField, if_neg found, List.map_cons, inductionHypothesis,
          List.mem_cons, other, false_or]
        split <;> rfl

theorem mem_keys_putField
    {fields : List (κ × α)} {key other : κ} {value : α} :
    other ∈ (putField fields key value).map (·.1) ↔
      other = key ∨ other ∈ fields.map (·.1) := by
  rw [keys_putField]
  split
  · constructor
    · exact Or.inr
    · intro given
      rcases given with rfl | member
      · assumption
      · exact member
  · simp [or_comm]

/-- No key comes twice where values are put under keys. -/
theorem nodup_keys_putField
    {fields : List (κ × α)} (nodup : (fields.map (·.1)).Nodup) (key : κ) (value : α) :
    ((putField fields key value).map (·.1)).Nodup := by
  rw [keys_putField]
  split
  · exact nodup
  · next fresh =>
    rw [List.nodup_append]
    refine ⟨nodup, List.nodup_singleton key, ?_⟩
    rintro known member other new rfl
    exact fresh (List.mem_singleton.mp new ▸ member)

theorem nodup_keys_foldl_putField
    {β : Type} {fields : List (κ × α)} (nodup : (fields.map (·.1)).Nodup)
    (items : List β) (key : β → κ) (value : β → α) :
    ((items.foldl (fun known item => putField known (key item) (value item)) fields).map
      (·.1)).Nodup := by
  induction items generalizing fields with
  | nil =>
      exact nodup
  | cons item rest inductionHypothesis =>
      exact inductionHypothesis (nodup_keys_putField nodup (key item) (value item))

/-- Values put one after another add the keys that they are put under. -/
theorem mem_keys_foldl_putField
    {β : Type} {fields : List (κ × α)} {items : List β}
    {key : β → κ} {value : β → α} {name : κ} :
    name ∈ (items.foldl
        (fun known item => putField known (key item) (value item)) fields).map (·.1) ↔
      name ∈ fields.map (·.1) ∨ name ∈ items.map key := by
  induction items generalizing fields with
  | nil =>
      simp
  | cons item rest inductionHypothesis =>
      rw [List.foldl_cons, inductionHypothesis, mem_keys_putField,
        List.map_cons, List.mem_cons]
      tauto

/-- A new key comes last. -/
theorem putField_of_fresh
    {fields : List (κ × α)} {key : κ} {value : α}
    (fresh : key ∉ fields.map (·.1)) :
    putField fields key value = fields ++ [(key, value)] := by
  induction fields with
  | nil =>
      rfl
  | cons field rest inductionHypothesis =>
      obtain ⟨known, old⟩ := field
      rw [List.map_cons, List.mem_cons, not_or] at fresh
      rw [putField, if_neg (Ne.symm fresh.1), inductionHypothesis fresh.2, List.cons_append]

/-- Values put under keys that are all different are listed in their order. -/
theorem foldl_putField_of_nodup
    {β : Type} {fields : List (κ × α)} {items : List β}
    {key : β → κ} {value : β → α}
    (nodup : (fields.map (·.1) ++ items.map key).Nodup) :
    items.foldl (fun known item => putField known (key item) (value item)) fields =
      fields ++ items.map fun item => (key item, value item) := by
  induction items generalizing fields with
  | nil =>
      simp
  | cons item rest inductionHypothesis =>
      have fresh : key item ∉ fields.map (·.1) := by
        intro known
        exact List.disjoint_of_nodup_append nodup known List.mem_cons_self
      have nextNodup :
          ((fields ++ [(key item, value item)]).map (·.1) ++ rest.map key).Nodup := by
        rw [List.map_append, List.append_assoc]
        exact nodup
      rw [List.foldl_cons, putField_of_fresh fresh, inductionHypothesis nextNodup,
        List.append_assoc, List.singleton_append, List.map_cons]

/-! ## Parts of documents -/

theorem string?_eq_some_iff (document : Json) (value : RawText) :
    document.string? = some value ↔ document = .string value := by
  cases document <;> simp [string?]

theorem array?_eq_some_iff (document : Json) (items : List Json) :
    document.array? = some items ↔ document = .array items := by
  cases document <;> simp [array?]

theorem object?_eq_some_iff (document : Json) (members : List (RawText × Json)) :
    document.object? = some members ↔ document = .object members := by
  cases document <;> simp [object?]

theorem field?_eq_some_iff (document : Json) (key : RawText) (value : Json) :
    document.field? key = some value ↔
      ∃ members, document = .object members ∧ members.lookup key = some value := by
  cases document <;> simp [field?]

end Json

end ModuleAtlas
