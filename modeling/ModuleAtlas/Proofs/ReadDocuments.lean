import Mathlib.Data.List.TakeWhile
import ModuleAtlas.Proofs.JsonRoundTrip
import ModuleAtlas.Proofs.RecordedOutcomes

/-!
# Documents that are read

Whatever text a document is read from, its whole numbers have no more digits
than are written, no key of its objects comes twice, and its arrays and objects
are nested within the limit of the reader.
-/

namespace ModuleAtlas.Json

variable {levels fuel depth : Nat} {rest behind : Rest} {document : Json}

/-- A document as a reader gives it, with arrays and objects nested up to a
number of levels. -/
inductive Given : Nat → Json → Prop
  | null {levels : Nat} : Given levels .null
  | bool {levels : Nat} (value : Bool) : Given levels (.bool value)
  | int {levels : Nat} {value : Int} :
      value.natAbs < Nat.pow 10 Reading.mostDigits → Given levels (.int value)
  | float {levels : Nat} (value : Binary64) : Given levels (.float value)
  | string {levels : Nat} (value : RawText) : Given levels (.string value)
  | array {levels : Nat} {items : List Json} :
      (∀ item ∈ items, Given levels item) → Given (levels + 1) (.array items)
  | object {levels : Nat} {fields : List (RawText × Json)} :
      (fields.map (·.1)).Nodup → (∀ field ∈ fields, Given levels field.2) →
        Given (levels + 1) (.object fields)

/-- What is read can be written. -/
theorem Given.isWritable (given : Given levels document) : document.isWritable = true := by
  induction given with
  | null => rfl
  | bool value => rfl
  | int small =>
      rw [Json.isWritable]
      exact decide_eq_true small
  | float value => rfl
  | string value => rfl
  | array items inductionHypothesis =>
      exact isWritable_array_iff.mpr inductionHypothesis
  | object nodup fields inductionHypothesis =>
      exact isWritable_object_iff.mpr inductionHypothesis

/-! ## Numbers and constants -/

theorem isDigit_of_mem_wholePart
    {characters : List Char} {digit : Char} (member : digit ∈ wholePart characters) :
    isDigit digit = true := by
  unfold wholePart at member
  split at member
  · rw [List.mem_singleton.mp member]
    rfl
  · exact List.mem_takeWhile_imp member

theorem foldl_digits_lt
    {digits : List Char} (decimal : ∀ digit ∈ digits, isDigit digit = true) (start : Nat) :
    digits.foldl (fun value digit => value * 10 + (digit.toNat - 48)) start <
      (start + 1) * Nat.pow 10 digits.length := by
  induction digits generalizing start with
  | nil =>
      simp
  | cons digit digits inductionHypothesis =>
      have small : digit.toNat - 48 ≤ 9 := by
        have bounds := decimal digit List.mem_cons_self
        rw [isDigit, Bool.and_eq_true, decide_eq_true_eq, decide_eq_true_eq] at bounds
        have most : digit.toNat ≤ 57 := UInt32.le_iff_toNat_le.mp bounds.2
        omega
      have further :=
        inductionHypothesis (fun other member => decimal other (List.mem_cons_of_mem _ member))
          (start * 10 + (digit.toNat - 48))
      have next : start * 10 + (digit.toNat - 48) + 1 ≤ (start + 1) * 10 := by omega
      calc
        (digit :: digits).foldl (fun value digit => value * 10 + (digit.toNat - 48)) start
          < (start * 10 + (digit.toNat - 48) + 1) * Nat.pow 10 digits.length := further
        _ ≤ ((start + 1) * 10) * Nat.pow 10 digits.length := Nat.mul_le_mul_right _ next
        _ = (start + 1) * Nat.pow 10 (digits.length + 1) := by
          simp only [Nat.pow_eq, Nat.pow_succ', Nat.mul_assoc]

theorem digitsValue_wholePart_lt
    {characters : List Char} {most : Nat} (short : (wholePart characters).length ≤ most) :
    digitsValue (wholePart characters) < Nat.pow 10 most := by
  have below := foldl_digits_lt (fun _ => @isDigit_of_mem_wholePart characters _) 0
  rw [Nat.zero_add, Nat.one_mul] at below
  exact below.trans_le (Nat.pow_le_pow_right (by decide) short)

theorem given_of_readNumber?
    (read : readNumber? rest = some (.ok (document, behind))) : Given levels document := by
  unfold readNumber? at read
  dsimp only at read
  generalize Letter.run isNumeric rest.letters = characters at read
  generalize (characters.head? == some '-') = negative at read
  generalize (if negative = true then characters.drop 1 else characters) = unsigned at read
  generalize fractionPart (unsigned.drop (wholePart unsigned).length) = fraction at read
  generalize exponentPart? _ = exponent at read
  split at read
  · cases read
  · split at read
    · split at read
      · cases read
      · next short =>
        cases read
        have small := digitsValue_wholePart_lt (Nat.le_of_not_lt short)
        apply Given.int
        cases negative with
        | true => rwa [if_pos rfl, Int.natAbs_neg, Int.natAbs_natCast]
        | false => rwa [if_neg Bool.false_ne_true, Int.natAbs_natCast]
    · cases read
      exact .float _

theorem given_of_mem_constants
    {constant : RawText × Json} (member : constant ∈ constants) : Given levels constant.2 := by
  simp only [constants, List.mem_cons, List.not_mem_nil, or_false] at member
  rcases member with rfl | rfl | rfl | rfl | rfl | rfl
  · exact .null
  · exact .bool true
  · exact .bool false
  · exact .float _
  · exact .float _
  · exact .float _

/-! ## Arrays and objects -/

theorem mem_putField
    {κ α : Type} [DecidableEq κ] {fields : List (κ × α)} {key : κ} {value : α} {field : κ × α}
    (member : field ∈ putField fields key value) : field = (key, value) ∨ field ∈ fields := by
  induction fields with
  | nil =>
      exact Or.inl (List.mem_singleton.mp member)
  | cons first rest inductionHypothesis =>
      obtain ⟨known, old⟩ := first
      rw [putField] at member
      split at member
      · next same =>
        subst same
        rcases List.mem_cons.mp member with rfl | later
        · exact Or.inl rfl
        · exact Or.inr (List.mem_cons_of_mem _ later)
      · rcases List.mem_cons.mp member with rfl | later
        · exact Or.inr List.mem_cons_self
        · exact (inductionHypothesis later).imp_right (List.mem_cons_of_mem _)

theorem given_ofFields
    {fields : List (RawText × Json)} (values : ∀ field ∈ fields, Given levels field.2) :
    Given (levels + 1) (ofFields fields) := by
  apply Given.object
  · have empty : (([] : List (RawText × Json)).map (·.1)).Nodup := List.nodup_nil
    exact nodup_keys_foldl_putField empty fields (·.1) (·.2)
  · apply List.foldlRecOn
      (motive := fun known : List (RawText × Json) => ∀ field ∈ known, Given levels field.2)
    · simp
    · intro known given field member entry found
      rcases mem_putField found with rfl | old
      · exact values field member
      · exact given entry old

/-- Of a reader with a bound on its steps: whatever it reads at a depth is nested no
deeper than is left from there. -/
def GivesWithin (fuel : Nat) : Prop :=
  ∀ (depth : Nat) (rest : Rest) (document : Json) (behind : Rest),
    readValue fuel depth rest = .ok (document, behind) →
      Given (deepestNesting + 1 - depth) document

theorem given_of_readItems
    {fuel : Nat} (values : ∀ less < fuel, GivesWithin less) {items : List Json}
    (taken : ∀ item ∈ items, Given (deepestNesting + 1 - depth) item)
    (read : readItems fuel depth rest items = .ok (document, behind)) :
    Given (deepestNesting + 1 - depth + 1) document := by
  induction fuel generalizing rest items with
  | zero =>
      cases read
  | succ fuel inductionHypothesis =>
      rw [readItems] at read
      obtain ⟨⟨item, next⟩, itemRead, read⟩ := bind_eq_ok_iff.mp read
      have itemGiven := values fuel (Nat.lt_succ_self fuel) depth rest item next itemRead
      have allGiven :
          ∀ other ∈ item :: items, Given (deepestNesting + 1 - depth) other := by
        intro other member
        rcases List.mem_cons.mp member with rfl | old
        · exact itemGiven
        · exact taken other old
      dsimp only at read
      split at read
      · cases read
        apply Given.array
        intro other member
        exact allGiven other (List.mem_reverse.mp member)
      · exact inductionHypothesis (fun less small => values less (Nat.lt_succ_of_lt small))
          allGiven read
      · cases read

theorem given_of_readFields
    {fuel : Nat} (values : ∀ less < fuel, GivesWithin less) {fields : List (RawText × Json)}
    (taken : ∀ field ∈ fields, Given (deepestNesting + 1 - depth) field.2)
    (read : readFields fuel depth rest fields = .ok (document, behind)) :
    Given (deepestNesting + 1 - depth + 1) document := by
  induction fuel generalizing rest fields with
  | zero =>
      cases read
  | succ fuel inductionHypothesis =>
      rw [readFields] at read
      split at read
      · obtain ⟨⟨key, colon⟩, _, read⟩ := bind_eq_ok_iff.mp read
        dsimp only at read
        split at read
        · obtain ⟨⟨value, next⟩, valueRead, read⟩ := bind_eq_ok_iff.mp read
          have valueGiven := values fuel (Nat.lt_succ_self fuel) depth _ value next valueRead
          have allGiven :
              ∀ field ∈ (key, value) :: fields, Given (deepestNesting + 1 - depth) field.2 := by
            intro field member
            rcases List.mem_cons.mp member with rfl | old
            · exact valueGiven
            · exact taken field old
          dsimp only at read
          split at read
          · cases read
            apply given_ofFields
            intro field member
            exact allGiven field (List.mem_reverse.mp member)
          · exact inductionHypothesis (fun less small => values less (Nat.lt_succ_of_lt small))
              allGiven read
          · cases read
        · cases read
      · cases read

/-! ## Documents -/

theorem givesWithin (fuel : Nat) : GivesWithin fuel := by
  induction fuel using Nat.strongRecOn with
  | ind fuel inductionHypothesis =>
      intro depth rest document behind read
      cases fuel with
      | zero =>
          cases read
      | succ fuel =>
          have values : ∀ less < fuel, GivesWithin less :=
            fun less small => inductionHypothesis less (Nat.lt_succ_of_lt small)
          rw [readValue] at read
          split at read
          · cases read
          · obtain ⟨⟨text, next⟩, _, read⟩ := bind_eq_ok_iff.mp read
            cases read
            exact .string text
          · split at read
            · cases read
            · next shallow =>
              have room : deepestNesting + 1 - depth = deepestNesting + 1 - (depth + 1) + 1 := by
                omega
              rw [room]
              dsimp only at read
              split at read
              · cases read
                exact .array (by simp)
              · exact given_of_readItems values (by simp) read
          · split at read
            · cases read
            · next shallow =>
              have room : deepestNesting + 1 - depth = deepestNesting + 1 - (depth + 1) + 1 := by
                omega
              rw [room]
              dsimp only at read
              split at read
              · cases read
                exact .object (by simp) (by simp)
              · exact given_of_readFields values (by simp) read
          · split at read
            · next found =>
              cases read
              exact given_of_mem_constants (List.mem_of_find?_eq_some found)
            · cases number : readNumber? rest with
              | none =>
                  rw [number] at read
                  cases read
              | some outcome =>
                  rw [number, Option.getD_some] at read
                  exact given_of_readNumber? (read ▸ number)

/-- Whatever text a document is read from, it is as readers give it. -/
theorem given_of_read {text : RawText} (succeeded : read text = .ok document) :
    Given deepestNesting document := by
  unfold read at succeeded
  dsimp only at succeeded
  split at succeeded
  · cases succeeded
  · obtain ⟨⟨found, behind⟩, value, succeeded⟩ := bind_eq_ok_iff.mp succeeded
    dsimp only at succeeded
    split at succeeded
    · cases succeeded
      exact givesWithin _ 1 _ document behind value
    · cases succeeded

end ModuleAtlas.Json
