import ModuleAtlas.Proofs.JsonRoundTrip
import ModuleAtlas.Proofs.ProperTexts

/-!
# Documents and their parts

Whether a document can be written, sent or copied is told by its parts: by its
numbers, by its texts, and by how deeply they are nested.
-/

namespace ModuleAtlas.Json

/-- A property that a document has within some levels when its parts have it, one
level deeper.  Of a text it is told by the text alone, and no text without halves
lacks it. -/
structure GoesByParts (spells : RawText → Prop) (holds : Nat → Json → Prop) : Prop where
  null : ∀ {levels}, holds levels .null
  bool : ∀ {levels} value, holds levels (.bool value)
  proper : ∀ text : String, spells text
  string_iff : ∀ {levels value}, holds levels (.string value) ↔ spells value
  array_iff :
    ∀ {levels items}, holds (levels + 1) (.array items) ↔ ∀ item ∈ items, holds levels item
  object_iff :
    ∀ {levels fields}, holds (levels + 1) (.object fields) ↔
      ∀ field ∈ fields, spells field.1 ∧ holds levels field.2

section

variable {spells other : RawText → Prop} {holds keeps : Nat → Json → Prop} {levels : Nat}

theorem GoesByParts.and
    (parts : GoesByParts spells holds) (others : GoesByParts other keeps) :
    GoesByParts (fun text => spells text ∧ other text)
      fun levels document => holds levels document ∧ keeps levels document where
  null := ⟨parts.null, others.null⟩
  bool value := ⟨parts.bool value, others.bool value⟩
  proper text := ⟨parts.proper text, others.proper text⟩
  string_iff := and_congr parts.string_iff others.string_iff
  array_iff := by
    intro levels items
    rw [parts.array_iff, others.array_iff]
    exact forall₂_and.symm
  object_iff := by
    intro levels fields
    rw [parts.object_iff, others.object_iff, ← forall₂_and]
    exact forall₂_congr fun _ _ => and_and_and_comm

theorem GoesByParts.string (parts : GoesByParts spells holds) (text : String) :
    holds levels (.string text) :=
  parts.string_iff.mpr (parts.proper text)

end

/-! ## Numbers -/

section

variable {items : List Json} {fields : List (RawText × Json)}

theorem isStandard_array_iff :
    (Json.array items).isStandard = true ↔ ∀ item ∈ items, item.isStandard = true := by
  rw [isStandard, floats]
  induction items with
  | nil => simp [floatsOfItems]
  | cons item rest inductionHypothesis =>
      rw [floatsOfItems, List.all_append, Bool.and_eq_true, inductionHypothesis,
        List.forall_mem_cons, isStandard]

theorem isStandard_object_iff :
    (Json.object fields).isStandard = true ↔ ∀ field ∈ fields, field.2.isStandard = true := by
  rw [isStandard, floats]
  induction fields with
  | nil => simp [floatsOfFields]
  | cons field rest inductionHypothesis =>
      rw [floatsOfFields, List.all_append, Bool.and_eq_true, inductionHypothesis,
        List.forall_mem_cons, isStandard]

theorem isStandard_goesByParts :
    GoesByParts (fun _ => True) fun _ document => document.isStandard = true where
  null := rfl
  bool _ := rfl
  proper _ := trivial
  string_iff := ⟨fun _ => trivial, fun _ => rfl⟩
  array_iff := isStandard_array_iff
  object_iff := by simp only [isStandard_object_iff, true_and, implies_true]

theorem isWritable_goesByParts :
    GoesByParts (fun _ => True) fun _ document => document.isWritable = true where
  null := rfl
  bool _ := rfl
  proper _ := trivial
  string_iff := ⟨fun _ => trivial, fun _ => rfl⟩
  array_iff := isWritable_array_iff
  object_iff := by simp only [isWritable_object_iff, true_and, implies_true]

/-! ## Texts -/

theorem isProper_array_iff :
    (Json.array items).isProper = true ↔ ∀ item ∈ items, item.isProper = true := by
  rw [isProper, texts]
  induction items with
  | nil => simp [textsOfItems]
  | cons item rest inductionHypothesis =>
      rw [textsOfItems, List.all_append, Bool.and_eq_true, inductionHypothesis,
        List.forall_mem_cons, isProper]

theorem isProper_object_iff :
    (Json.object fields).isProper = true ↔
      ∀ field ∈ fields, field.1.isProper = true ∧ field.2.isProper = true := by
  rw [isProper, texts]
  induction fields with
  | nil => simp [textsOfFields]
  | cons field rest inductionHypothesis =>
      rw [textsOfFields, List.all_cons, List.all_append, Bool.and_eq_true, Bool.and_eq_true,
        inductionHypothesis, List.forall_mem_cons, isProper, and_assoc]

theorem isProper_goesByParts :
    GoesByParts (fun text => text.isProper = true) fun _ document => document.isProper = true where
  null := rfl
  bool _ := rfl
  proper _ := rfl
  string_iff := by simp [isProper, texts]
  array_iff := isProper_array_iff
  object_iff := isProper_object_iff

/-! ## Nesting -/

theorem nestingOfItems_le_iff {most : Nat} :
    nestingOfItems items ≤ most ↔ ∀ item ∈ items, item.nesting ≤ most := by
  induction items with
  | nil => simp [nestingOfItems]
  | cons item rest inductionHypothesis =>
      rw [nestingOfItems, Nat.max_le, inductionHypothesis, List.forall_mem_cons]

theorem nestingOfFields_le_iff {most : Nat} :
    nestingOfFields fields ≤ most ↔ ∀ field ∈ fields, field.2.nesting ≤ most := by
  induction fields with
  | nil => simp [nestingOfFields]
  | cons field rest inductionHypothesis =>
      rw [nestingOfFields, Nat.max_le, inductionHypothesis, List.forall_mem_cons]

theorem nesting_goesByParts :
    GoesByParts (fun _ => True) fun levels document => document.nesting ≤ levels where
  null := by simp [nesting]
  bool _ := by simp [nesting]
  proper _ := trivial
  string_iff := by simp [nesting]
  array_iff := by
    intro levels items
    rw [nesting, Nat.add_comm, Nat.add_le_add_iff_right, nestingOfItems_le_iff]
  object_iff := by
    intro levels fields
    rw [nesting, Nat.add_comm, Nat.add_le_add_iff_right, nestingOfFields_le_iff]
    simp only [true_and]

/-- Whether a document can be sent goes by its parts. -/
theorem isSendable_goesByParts :
    GoesByParts (fun text => text.isProper = true) fun levels document =>
      document.isSendable levels = true := by
  have parts :=
    ((nesting_goesByParts.and isStandard_goesByParts).and isWritable_goesByParts).and
      isProper_goesByParts
  simpa only [isSendable, Bool.and_eq_true, decide_eq_true_eq, true_and] using parts

/-! ## Copying -/

@[simp]
theorem copyingCalls_null : Json.null.copyingCalls = 3 := by
  simp [copyingCalls]

@[simp]
theorem copyingCalls_bool (value : Bool) : (Json.bool value).copyingCalls = 3 := by
  simp [copyingCalls]

@[simp]
theorem copyingCalls_string (value : RawText) : (Json.string value).copyingCalls = 3 := by
  simp [copyingCalls]

theorem copyingCalls_array_le_iff {most : Nat} :
    (Json.array items).copyingCalls ≤ most + 2 ↔ ∀ item ∈ items, item.copyingCalls ≤ most := by
  rw [copyingCalls, Nat.add_comm, Nat.add_le_add_iff_right]
  induction items with
  | nil => simp [copyingCallsOfItems]
  | cons item rest inductionHypothesis =>
      rw [copyingCallsOfItems, Nat.max_le, inductionHypothesis, List.forall_mem_cons]

theorem copyingCalls_object_le_iff {most : Nat} (room : 3 ≤ most) :
    (Json.object fields).copyingCalls ≤ most + 2 ↔
      ∀ field ∈ fields, field.2.copyingCalls ≤ most := by
  rw [copyingCalls, Nat.add_comm, Nat.add_le_add_iff_right]
  induction fields with
  | nil => simp [copyingCallsOfFields]
  | cons field rest inductionHypothesis =>
      rw [copyingCallsOfFields, Nat.max_le, Nat.max_le, inductionHypothesis,
        List.forall_mem_cons]
      simp only [room, true_and]

end

/-! ## Documents that are read back -/

theorem HasPlaces.isFinite
    {value : Binary64} {first : Char} {places : List Char}
    (written : HasPlaces value first places) : value.isFinite = true := by
  obtain ⟨decimal, _, _, text, _⟩ := written
  cases value with
  | finite negative significand exponent =>
      rfl
  | nan =>
      obtain ⟨rfl, _⟩ := List.cons.inj text
      exact absurd decimal (by decide)
  | infinite negative =>
      cases negative with
      | true =>
          obtain ⟨rfl, _⟩ := List.cons.inj text
          exact absurd decimal (by decide)
      | false =>
          obtain ⟨rfl, _⟩ := List.cons.inj text
          exact absurd decimal (by decide)

theorem Readable.isStandard
    {levels : Nat} {document : Json} (readable : Readable levels document) :
    document.isStandard = true := by
  induction readable with
  | null => rfl
  | bool value => rfl
  | int value => rfl
  | float written =>
      rw [Json.isStandard, floats, List.all_cons, written.isFinite]
      rfl
  | string value => rfl
  | array items inductionHypothesis =>
      exact isStandard_array_iff.mpr inductionHypothesis
  | object nodup fields inductionHypothesis =>
      exact isStandard_object_iff.mpr inductionHypothesis

end ModuleAtlas.Json
