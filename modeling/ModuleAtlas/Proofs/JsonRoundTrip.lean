import ModuleAtlas.Proofs.JsonScalars
import ModuleAtlas.Proofs.KeyedLists

/-!
# Reading what was written

A document that is written over several lines is read back as it was, unless a
key comes twice, a number has too many digits or the nesting is too deep.
-/

namespace ModuleAtlas.Json

/-! ## Gaps -/

theorem newLine_eq_map (level : Nat) :
    newLine level = ('\n' :: List.replicate (2 * level) ' ').map .char := by
  simp [newLine]

theorem length_newLine (level : Nat) : (newLine level).length = 2 * level + 1 := by
  simp [newLine]

/-- What stands behind gaps is found. -/
theorem skipGaps_append
    {gaps : List Char} (blank : ∀ gap ∈ gaps, isGap gap = true)
    {first : Letter} (noGap : first.satisfies isGap = false) (rest : List Letter) (index : Nat) :
    (Rest.mk (gaps.map .char ++ first :: rest) index).skipGaps =
      ⟨first :: rest, index + gaps.length⟩ := by
  have taken : Letter.run isGap (gaps.map .char ++ first :: rest) = gaps :=
    Letter.run_append blank fun _ begins => Option.some.inj begins ▸ noGap
  unfold Rest.skipGaps Rest.advance
  rw [taken]
  exact congrArg (Rest.mk · _) (List.drop_left' (List.length_map _))

theorem skipGaps_of_not_isGap
    {first : Letter} (noGap : first.satisfies isGap = false) (rest : List Letter) (index : Nat) :
    (Rest.mk (first :: rest) index).skipGaps = ⟨first :: rest, index⟩ :=
  @skipGaps_append [] (by simp) first noGap rest index

theorem skipGaps_blank
    {first : Letter} (noGap : first.satisfies isGap = false) (rest : List Letter) (index : Nat) :
    (Rest.mk (.char ' ' :: first :: rest) index).skipGaps = ⟨first :: rest, index + 1⟩ :=
  @skipGaps_append [' '] (by simp [isGap]) first noGap rest index

theorem skipGaps_newLine
    (level : Nat) {first : Letter} (noGap : first.satisfies isGap = false) (rest : List Letter)
    (index : Nat) :
    ∃ next, (Rest.mk (newLine level ++ first :: rest) index).skipGaps = ⟨first :: rest, next⟩ := by
  have blank : ∀ gap ∈ '\n' :: List.replicate (2 * level) ' ', isGap gap = true := by
    intro gap member
    rcases List.mem_cons.mp member with rfl | blank
    · rfl
    · rw [List.eq_of_mem_replicate blank]
      rfl
  rw [newLine_eq_map]
  exact ⟨_, skipGaps_append blank noGap rest index⟩

/-! ## Steps of the reader -/

theorem readValue_quote (fuel depth : Nat) (more : List Letter) (index : Nat) :
    readValue (fuel + 1) depth ⟨.char '"' :: more, index⟩ =
      (do
        let (text, remaining) ← readString index (more.length + 1) more (index + 1) []
        pure (.string text, remaining)) := by
  rw [readValue]
  rfl

theorem readValue_bracket (fuel depth : Nat) (more : List Letter) (index : Nat) :
    readValue (fuel + 1) depth ⟨.char '[' :: more, index⟩ =
      if deepestNesting < depth then .error (.nesting "array")
      else
        let inside := Rest.skipGaps ⟨more, index + 1⟩
        match inside.letters with
        | .char ']' :: _ => .ok (.array [], inside.advance 1)
        | _ => readItems fuel (depth + 1) inside [] := by
  rw [readValue]
  rfl

theorem readValue_brace (fuel depth : Nat) (more : List Letter) (index : Nat) :
    readValue (fuel + 1) depth ⟨.char '\x7b' :: more, index⟩ =
      if deepestNesting < depth then .error (.nesting "object")
      else
        let inside := Rest.skipGaps ⟨more, index + 1⟩
        match inside.letters with
        | .char '\x7d' :: _ => .ok (.object [], inside.advance 1)
        | _ => readFields fuel (depth + 1) inside [] := by
  rw [readValue]
  rfl

section

variable (fuel : Nat) {depth : Nat} (shallow : depth ≤ deepestNesting)

include shallow

theorem readValue_emptyArray (more : List Letter) (index : Nat) :
    readValue (fuel + 1) depth ⟨.char '[' :: .char ']' :: more, index⟩ =
      .ok (.array [], ⟨more, index + 1 + 1⟩) := by
  rw [readValue_bracket, if_neg (Nat.not_lt.mpr shallow),
    @skipGaps_of_not_isGap (.char ']') rfl]
  rfl

theorem readValue_emptyObject (more : List Letter) (index : Nat) :
    readValue (fuel + 1) depth ⟨.char '\x7b' :: .char '\x7d' :: more, index⟩ =
      .ok (.object [], ⟨more, index + 1 + 1⟩) := by
  rw [readValue_brace, if_neg (Nat.not_lt.mpr shallow),
    @skipGaps_of_not_isGap (.char '\x7d') rfl]
  rfl

/-- An array with items is read item by item. -/
theorem readValue_items
    (level : Nat) {first : Letter} (noGap : first.satisfies isGap = false) (noEnd : first ≠ .char ']')
    (more : List Letter) (index : Nat) :
    ∃ next, readValue (fuel + 1) depth ⟨.char '[' :: (newLine level ++ first :: more), index⟩ =
      readItems fuel (depth + 1) ⟨first :: more, next⟩ [] := by
  obtain ⟨next, found⟩ := skipGaps_newLine level noGap more (index + 1)
  refine ⟨next, ?_⟩
  rw [readValue_bracket, if_neg (Nat.not_lt.mpr shallow), found]
  dsimp only
  split
  · next shape => exact absurd (List.cons.inj shape).1 noEnd
  · rfl

/-- An object with fields is read field by field. -/
theorem readValue_fields (level : Nat) (more : List Letter) (index : Nat) :
    ∃ next,
      readValue (fuel + 1) depth
          ⟨.char '\x7b' :: (newLine level ++ .char '"' :: more), index⟩ =
        readFields fuel (depth + 1) ⟨.char '"' :: more, next⟩ [] := by
  obtain ⟨next, found⟩ := @skipGaps_newLine level (.char '"') rfl more (index + 1)
  refine ⟨next, ?_⟩
  rw [readValue_brace, if_neg (Nat.not_lt.mpr shallow), found]
  rfl

end

theorem ne_of_isDigit {first letter : Char} (decimal : isDigit first = true)
    (other : isDigit letter = false) : first ≠ letter := by
  rintro rfl
  rw [decimal] at other
  cases other

theorem letters_constants :
    constants.map (fun constant => constant.1.letters) =
      [['n', 'u', 'l', 'l'], ['t', 'r', 'u', 'e'], ['f', 'a', 'l', 's', 'e'], ['N', 'a', 'N'],
        ['I', 'n', 'f', 'i', 'n', 'i', 't', 'y'],
        ['-', 'I', 'n', 'f', 'i', 'n', 'i', 't', 'y']].map (List.map Letter.char) :=
  rfl

/-- No constant begins with a digit, with or without a sign. -/
theorem find?_constants_eq_none
    (negative : Bool) {first : Char} (decimal : isDigit first = true) (rest : List Letter) :
    constants.find? (fun constant =>
      constant.1.letters.isPrefixOf
        ((Decimal.signText negative).map .char ++ .char first :: rest)) = none := by
  have different : ∀ letter, isDigit letter = false → letter ≠ first :=
    fun letter other => (ne_of_isDigit decimal other).symm
  have noPrefix : ∀ letters ∈ constants.map (fun constant => constant.1.letters),
      letters.isPrefixOf ((Decimal.signText negative).map .char ++ .char first :: rest) =
        false := by
    rw [letters_constants]
    cases negative with
    | true =>
        simp [Decimal.signText, List.isPrefixOf, different 'I' rfl]
    | false =>
        simp [Decimal.signText, List.isPrefixOf, different 'n' rfl, different 't' rfl,
          different 'f' rfl, different 'N' rfl, different 'I' rfl, different '-' rfl]
  rw [List.find?_eq_none]
  intro constant member
  rw [noPrefix _ (List.mem_map_of_mem member)]
  exact Bool.false_ne_true

/-- Digits are not taken for anything but a number. -/
theorem readValue_signed
    (fuel depth : Nat) (negative : Bool) {first : Char} (decimal : isDigit first = true)
    (rest : List Letter) (index : Nat) :
    readValue (fuel + 1) depth
        ⟨(Decimal.signText negative).map .char ++ .char first :: rest, index⟩ =
      (readNumber? ⟨(Decimal.signText negative).map .char ++ .char first :: rest, index⟩).getD
        (.error (.grammar .value index)) := by
  have none := find?_constants_eq_none negative decimal rest
  have other {letter : Char} {more : List Letter} (noDigit : isDigit letter = false)
      (shape : Letter.char first :: rest = .char letter :: more) : False :=
    ne_of_isDigit decimal noDigit (Letter.char.inj (List.cons.inj shape).1)
  rw [readValue]
  dsimp only
  rw [none]
  cases negative with
  | true =>
      rfl
  | false =>
      simp only [Decimal.signText, Bool.false_eq_true, if_false, List.map_nil, List.nil_append]
      split
      · next shape => cases shape
      · next shape => exact (other rfl shape).elim
      · next shape => exact (other rfl shape).elim
      · next shape => exact (other rfl shape).elim
      · rfl

/-! ## Values -/

/-- A document that is read back wherever it was written, in arrays and objects
nested up to a number of levels. -/
def ReadsBack (levels : Nat) (document : Json) : Prop :=
  ∀ (level depth fuel : Nat) (more : List Letter) (index : Nat),
    depth + levels ≤ deepestNesting + 1 →
    (prettyAt level document).length ≤ fuel →
    EndsValue more →
    ∃ last, readValue (fuel + 1) depth ⟨prettyAt level document ++ more, index⟩ =
      .ok (document, ⟨more, last⟩)

/-- The text of a document begins neither with a gap nor with the end of an
array nor with the mark of an encoding. -/
def BeginsValue (document : Json) : Prop :=
  ∀ level, ∃ first rest,
    prettyAt level document = first :: rest ∧ first.satisfies isGap = false ∧
      first ≠ .char ']' ∧ first ≠ .char '\uFEFF'

theorem spell_ne_nil (letter : Letter) : spell letter ≠ [] := by
  cases letter with
  | half value => simp [spell]
  | char value =>
      rw [spell, ne_eq, List.map_eq_nil_iff]
      unfold escapeChar
      split <;> simp [unicodeEscape]
      split <;> simp

theorem length_le_flatMap_spell (letters : List Letter) :
    letters.length ≤ (letters.flatMap spell).length := by
  induction letters with
  | nil =>
      exact Nat.le_refl 0
  | cons letter letters inductionHypothesis =>
      have positive := List.length_pos_iff.mpr (spell_ne_nil letter)
      rw [List.flatMap_cons, List.length_append, List.length_cons]
      omega

/-- A text is read back behind its opening quote. -/
theorem readString_quoted (text : RawText) (more : List Letter) (start index : Nat) :
    ∃ behind last, quoted text ++ more = .char '"' :: behind ∧
      readString start (behind.length + 1) behind index [] = .ok (text, ⟨more, last⟩) := by
  have enough :
      text.letters.length < (text.letters.flatMap spell ++ .char '"' :: more).length + 1 := by
    have short := length_le_flatMap_spell text.letters
    rw [List.length_append]
    omega
  obtain ⟨last, read⟩ := readString_flatMap_spell start text.letters more enough index []
  refine ⟨text.letters.flatMap spell ++ .char '"' :: more, last, ?_, ?_⟩
  · rw [quoted, List.cons_append, List.append_assoc, List.singleton_append]
  · rw [read, List.reverse_nil, List.nil_append, RawText.ofLetters_letters]

theorem readsBack_null : ReadsBack 0 .null := by
  intro level depth fuel more index _ _ _
  refine ⟨index + 4, ?_⟩
  rw [prettyAt]
  rfl

theorem readsBack_bool (value : Bool) : ReadsBack 0 (.bool value) := by
  intro level depth fuel more index _ _ _
  cases value with
  | true =>
      refine ⟨index + 4, ?_⟩
      rw [prettyAt]
      rfl
  | false =>
      refine ⟨index + 5, ?_⟩
      rw [prettyAt]
      rfl

theorem readsBack_string (value : RawText) : ReadsBack 0 (.string value) := by
  intro level depth fuel more index _ _ _
  obtain ⟨behind, last, text, read⟩ := readString_quoted value more index (index + 1)
  refine ⟨last, ?_⟩
  rw [prettyAt, text, readValue_quote, read]
  rfl

theorem readsBack_float
    {value : Binary64} {first : Char} {places : List Char}
    (written : HasPlaces value first places) :
    ReadsBack 0 (.float value) := by
  intro level depth fuel more index _ _ ends
  obtain ⟨last, read⟩ := readNumber?_places written ends index
  have text :
      plainLetters (floatLiteral value) ++ more =
        (Decimal.signText false).map .char ++
          .char first :: (('.' :: places).map .char ++ more) := by
    rw [plainLetters, RawText.letters, written.text]
    rfl
  refine ⟨last, ?_⟩
  rw [prettyAt, text, readValue_signed _ _ _ written.decimal, ← text, read]
  rfl

theorem isGap_of_isDigit {first : Char} (decimal : isDigit first = true) :
    isGap first = false := by
  have noGap : ∀ letter, isDigit letter = false → (first == letter) = false :=
    fun letter other => beq_eq_false_iff_ne.mpr (ne_of_isDigit decimal other)
  simp [isGap, noGap ' ' rfl, noGap '\t' rfl, noGap '\n' rfl, noGap '\r' rfl]

theorem readsBack_int
    {value : Int} (writable : value.natAbs < Nat.pow 10 Reading.mostDigits) :
    ReadsBack 0 (.int value) := by
  intro level depth fuel more index _ _ ends
  obtain ⟨last, read⟩ := readNumber?_intText writable ends index
  obtain ⟨first, others, digits, decimal⟩ := exists_digitsOf_eq_cons value.natAbs
  have text :
      plainLetters (Decimal.intText value) ++ more =
        (Decimal.signText (decide (value < 0))).map .char ++
          .char first :: (others.map .char ++ more) := by
    rw [plainLetters, RawText.letters, Decimal.intText, String.toList_ofList, digits,
      List.map_append, List.append_assoc, List.map_cons, List.cons_append]
  refine ⟨last, ?_⟩
  rw [prettyAt, text, readValue_signed _ _ _ decimal, ← text, read]
  rfl

theorem EndsValue.newLine (level : Nat) (rest : List Letter) :
    EndsValue (newLine level ++ rest) := by
  rw [Json.newLine, List.cons_append]
  exact Or.inr ⟨_, Or.inr rfl⟩

/-! ## Items -/

section

variable {fuel depth : Nat} {rest behind : Rest} {item : Json}
  (read : readValue fuel depth rest = .ok (item, behind)) {more : List Letter} {next : Nat}

include read

theorem readItems_last
    (found : behind.skipGaps = ⟨.char ']' :: more, next⟩) (taken : List Json) :
    readItems (fuel + 1) depth rest taken =
      .ok (.array (item :: taken).reverse, ⟨more, next + 1⟩) := by
  rw [readItems, read]
  simp only [bind, Except.bind, found]
  rfl

theorem readItems_comma
    (found : behind.skipGaps = ⟨.char ',' :: more, next⟩) (taken : List Json) :
    readItems (fuel + 1) depth rest taken =
      readItems fuel depth (Rest.skipGaps ⟨more, next + 1⟩) (item :: taken) := by
  rw [readItems, read]
  simp only [bind, Except.bind, found]
  rfl

end

theorem prettyItems_nil (level : Nat) : prettyItems level [] = [] := by
  rw [prettyItems]

theorem prettyItems_cons (level : Nat) (item : Json) (rest : List Json) :
    prettyItems level (item :: rest) =
      .char ',' :: (newLine level ++ (prettyAt level item ++
        (prettyItems level rest))) := by
  rw [prettyItems]
  simp

/-- The items of an array are read back up to its end. -/
theorem readItems_prettyItems
    {levels depth : Nat} (within : depth + levels ≤ deepestNesting + 1)
    {first : Json} {rest : List Json}
    (reads : ∀ item ∈ first :: rest, ReadsBack levels item ∧ BeginsValue item)
    (level outer : Nat) {fuel : Nat}
    (enough : (prettyAt level first).length + (prettyItems level rest).length ≤ fuel)
    (more : List Letter) (index : Nat) (taken : List Json) :
    ∃ last, readItems (fuel + 2) depth
        ⟨prettyAt level first ++ (prettyItems level rest ++
          (newLine outer ++ .char ']' :: more)), index⟩ taken =
      .ok (.array (taken.reverse ++ first :: rest), ⟨more, last⟩) := by
  induction rest generalizing first fuel index taken with
  | nil =>
      have ends := EndsValue.newLine outer (.char ']' :: more)
      have firstReads := (reads first List.mem_cons_self).1
      obtain ⟨behind, read⟩ := firstReads level depth fuel _ index within (by omega) ends
      obtain ⟨next, found⟩ := @skipGaps_newLine outer (.char ']') rfl more behind
      refine ⟨next + 1, ?_⟩
      rw [prettyItems_nil, List.nil_append, readItems_last read found, List.reverse_cons]
  | cons item rest inductionHypothesis =>
      rw [prettyItems_cons] at enough ⊢
      simp only [List.cons_append, List.append_assoc, List.length_cons, List.length_append]
        at enough ⊢
      obtain ⟨less, rfl⟩ : ∃ less, fuel = less + 1 := ⟨fuel - 1, by omega⟩
      have ends : ∀ rest, EndsValue (.char ',' :: rest) := fun rest => Or.inr ⟨rest, Or.inl rfl⟩
      have firstReads := (reads first List.mem_cons_self).1
      obtain ⟨behind, read⟩ := firstReads level depth (less + 1) _ index within (by omega) (ends _)
      have comma := @skipGaps_of_not_isGap (.char ',') rfl
      -- Behind the comma and the line break the next item begins.
      obtain ⟨letter, letters, text, noGap, _⟩ :=
        (reads item (List.mem_cons_of_mem first List.mem_cons_self)).2 level
      obtain ⟨next, found⟩ := skipGaps_newLine level noGap (letters ++
        (prettyItems level rest ++ (newLine outer ++ .char ']' :: more))) (behind + 1)
      rw [← List.cons_append, ← text] at found
      have restEnough :
          (prettyAt level item).length + (prettyItems level rest).length ≤ less := by
        omega
      obtain ⟨last, rests⟩ :=
        inductionHypothesis (fun other member => reads other (List.mem_cons_of_mem first member))
          restEnough next (first :: taken)
      refine ⟨last, ?_⟩
      rw [readItems_comma read (comma _ _), found, rests, List.reverse_cons, List.append_assoc,
        List.singleton_append]

/-! ## Fields -/

/-- A field begins with its key, a colon and a blank. -/
theorem readFields_key
    (fuel depth : Nat) (key : RawText) {first : Letter} (noGap : first.satisfies isGap = false)
    (more : List Letter) (index : Nat) (taken : List (RawText × Json)) :
    ∃ next, readFields (fuel + 1) depth
        ⟨quoted key ++ .char ':' :: .char ' ' :: first :: more, index⟩ taken =
      (do
        let (value, behind) ← readValue fuel depth ⟨first :: more, next⟩
        let after := behind.skipGaps
        match after.letters with
        | .char '\x7d' :: _ => pure (ofFields ((key, value) :: taken).reverse, after.advance 1)
        | .char ',' :: _ => readFields fuel depth (after.advance 1).skipGaps ((key, value) :: taken)
        | _ => throw (.grammar .comma after.index)) := by
  obtain ⟨behind, last, text, read⟩ :=
    readString_quoted key (.char ':' :: .char ' ' :: first :: more) index (index + 1)
  have colon := @skipGaps_of_not_isGap (.char ':') rfl (.char ' ' :: first :: more) last
  have blank := skipGaps_blank noGap more (last + 1)
  refine ⟨last + 1 + 1, ?_⟩
  rw [text, readFields]
  simp only [read, bind, Except.bind, colon]
  dsimp only [Rest.advance, List.drop]
  exact blank ▸ rfl

section

variable {levels depth : Nat} (within : depth + levels ≤ deepestNesting + 1)
  {value : Json} (reads : ReadsBack levels value) (begins : BeginsValue value)
  (key : RawText) (level : Nat) {fuel : Nat}
  (enough : (prettyAt level value).length ≤ fuel)

include within reads begins enough

/-- What a field is read to depends on what stands behind its value. -/
theorem readFields_value
    {more : List Letter} (ends : EndsValue more) (index : Nat) (taken : List (RawText × Json)) :
    ∃ behind, readFields (fuel + 2) depth
        ⟨quoted key ++
          .char ':' :: .char ' ' :: (prettyAt level value ++ more), index⟩ taken =
      (let after := Rest.skipGaps ⟨more, behind⟩
      match after.letters with
      | .char '\x7d' :: _ => pure (ofFields ((key, value) :: taken).reverse, after.advance 1)
      | .char ',' :: _ =>
          readFields (fuel + 1) depth (after.advance 1).skipGaps ((key, value) :: taken)
      | _ => throw (.grammar .comma after.index)) := by
  obtain ⟨first, letters, text, noGap, _⟩ := begins level
  obtain ⟨next, keyRead⟩ :=
    readFields_key (fuel + 1) depth key noGap (letters ++ more) index taken
  obtain ⟨behind, valueRead⟩ := reads level depth fuel more next within enough ends
  refine ⟨behind, ?_⟩
  rw [text, List.cons_append] at valueRead ⊢
  rw [keyRead, valueRead]
  rfl

theorem readFields_last
    (outer : Nat) (more : List Letter) (index : Nat) (taken : List (RawText × Json)) :
    ∃ last, readFields (fuel + 2) depth
        ⟨quoted key ++ .char ':' :: .char ' ' :: (prettyAt level value ++
          (newLine outer ++ .char '\x7d' :: more)), index⟩ taken =
      .ok (ofFields ((key, value) :: taken).reverse, ⟨more, last⟩) := by
  have ends := EndsValue.newLine outer (.char '\x7d' :: more)
  obtain ⟨behind, read⟩ := readFields_value within reads begins key level enough ends index taken
  obtain ⟨next, found⟩ := @skipGaps_newLine outer (.char '\x7d') rfl more behind
  refine ⟨next + 1, ?_⟩
  rw [read, found]
  rfl

theorem readFields_comma
    (more : List Letter) (index : Nat) (taken : List (RawText × Json)) :
    ∃ next, readFields (fuel + 2) depth
        ⟨quoted key ++ .char ':' :: .char ' ' :: (prettyAt level value ++
          .char ',' :: more), index⟩ taken =
      readFields (fuel + 1) depth (Rest.skipGaps ⟨more, next⟩) ((key, value) :: taken) := by
  have ends : EndsValue (.char ',' :: more) := Or.inr ⟨_, Or.inl rfl⟩
  obtain ⟨behind, read⟩ := readFields_value within reads begins key level enough ends index taken
  refine ⟨behind + 1, ?_⟩
  rw [read, @skipGaps_of_not_isGap (.char ',') rfl]
  rfl

end

theorem prettyFields_nil (level : Nat) : prettyFields level [] = [] := by
  rw [prettyFields]

theorem prettyFields_cons
    (level : Nat) (key : RawText) (value : Json) (rest : List (RawText × Json)) :
    prettyFields level ((key, value) :: rest) =
      .char ',' :: (newLine level ++ (quoted key ++
        .char ':' :: .char ' ' :: (prettyAt level value ++ prettyFields level rest))) := by
  rw [prettyFields]
  simp

/-- The fields of an object are read back up to its end. -/
theorem readFields_prettyFields
    {levels depth : Nat} (within : depth + levels ≤ deepestNesting + 1)
    {key : RawText} {value : Json} {rest : List (RawText × Json)}
    (reads : ∀ field ∈ (key, value) :: rest, ReadsBack levels field.2 ∧ BeginsValue field.2)
    (level outer : Nat) {fuel : Nat}
    (enough : (prettyAt level value).length + (prettyFields level rest).length ≤ fuel)
    (more : List Letter) (index : Nat) (taken : List (RawText × Json)) :
    ∃ last, readFields (fuel + 2) depth
        ⟨quoted key ++ .char ':' :: .char ' ' :: (prettyAt level value ++
          (prettyFields level rest ++ (newLine outer ++ .char '\x7d' :: more))),
          index⟩ taken =
      .ok (ofFields (taken.reverse ++ (key, value) :: rest), ⟨more, last⟩) := by
  induction rest generalizing key value fuel index taken with
  | nil =>
      obtain ⟨valueReads, valueBegins⟩ := reads (key, value) List.mem_cons_self
      have short : (prettyAt level value).length ≤ fuel := by omega
      obtain ⟨last, read⟩ :=
        readFields_last within valueReads valueBegins key level short outer more index taken
      refine ⟨last, ?_⟩
      rw [prettyFields_nil, List.nil_append, read, List.reverse_cons]
  | cons field rest inductionHypothesis =>
      obtain ⟨nextKey, nextValue⟩ := field
      obtain ⟨valueReads, valueBegins⟩ := reads (key, value) List.mem_cons_self
      rw [prettyFields_cons] at enough ⊢
      simp only [List.cons_append, List.append_assoc, List.length_cons, List.length_append]
        at enough ⊢
      obtain ⟨less, rfl⟩ : ∃ less, fuel = less + 1 := ⟨fuel - 1, by omega⟩
      have short : (prettyAt level value).length ≤ less + 1 := by omega
      obtain ⟨behind, read⟩ :=
        readFields_comma within valueReads valueBegins key level short _ index taken
      -- Behind the comma and the line break the next key begins.
      obtain ⟨next, found⟩ :=
        @skipGaps_newLine level (.char '"') rfl
          ((nextKey.letters.flatMap spell ++ [.char '"']) ++
            .char ':' :: .char ' ' :: (prettyAt level nextValue ++ (prettyFields level rest ++
              (newLine outer ++ .char '\x7d' :: more)))) behind
      rw [← List.cons_append, ← quoted] at found
      have restEnough :
          (prettyAt level nextValue).length + (prettyFields level rest).length ≤
            less := by
        omega
      obtain ⟨last, rests⟩ :=
        inductionHypothesis
          (fun field member => reads field (List.mem_cons_of_mem (key, value) member))
          restEnough next ((key, value) :: taken)
      refine ⟨last, ?_⟩
      rw [read, found, rests, List.reverse_cons, List.append_assoc, List.singleton_append]

/-! ## Documents -/

/-- A document that can be read back, with arrays and objects nested up to a
number of levels: no key of an object comes twice, and floating-point numbers
have places. -/
inductive Readable : Nat → Json → Prop
  | null {levels : Nat} : Readable levels .null
  | bool {levels : Nat} (value : Bool) : Readable levels (.bool value)
  | int {levels : Nat} (value : Int) : Readable levels (.int value)
  | float {levels : Nat} {value : Binary64} {first : Char} {places : List Char} :
      HasPlaces value first places → Readable levels (.float value)
  | string {levels : Nat} (value : RawText) : Readable levels (.string value)
  | array {levels : Nat} {items : List Json} :
      (∀ item ∈ items, Readable levels item) → Readable (levels + 1) (.array items)
  | object {levels : Nat} {fields : List (RawText × Json)} :
      (fields.map (·.1)).Nodup → (∀ field ∈ fields, Readable levels field.2) →
        Readable (levels + 1) (.object fields)

theorem Readable.record
    {levels : Nat} {fields : List (RawText × Json)} (nodup : (fields.map (·.1)).Nodup)
    (values : fields.Forall fun field => Readable levels field.2) :
    Readable (levels + 1) (.object fields) :=
  .object nodup (List.forall_iff_forall_mem.mp values)

theorem readable_ofList
    {α : Type} {encode : α → Json} {levels : Nat}
    (encoded : ∀ item, Readable levels (encode item)) (items : List α) :
    Readable (levels + 1) (ofList encode items) := by
  apply Readable.array
  intro document member
  obtain ⟨item, _, rfl⟩ := List.mem_map.mp member
  exact encoded item

theorem readable_strings (levels : Nat) (items : List String) :
    Readable (levels + 1) (strings items) :=
  readable_ofList (fun item : String => .string item) items

theorem ReadsBack.deeper
    {document : Json} (reads : ReadsBack 0 document) (levels : Nat) :
    ReadsBack levels document := by
  intro level depth fuel more index within
  exact reads level depth fuel more index (by omega)

theorem prettyAt_array (level : Nat) (first : Json) (rest : List Json) :
    prettyAt level (.array (first :: rest)) =
      .char '[' :: (newLine (level + 1) ++ (prettyAt (level + 1) first ++
        (prettyItems (level + 1) rest ++ (newLine level ++ [.char ']'])))) := by
  rw [prettyAt]
  simp

theorem prettyAt_object
    (level : Nat) (key : RawText) (value : Json) (rest : List (RawText × Json)) :
    prettyAt level (.object ((key, value) :: rest)) =
      .char '\x7b' :: (newLine (level + 1) ++ (quoted key ++
        .char ':' :: .char ' ' :: (prettyAt (level + 1) value ++
          (prettyFields (level + 1) rest ++ (newLine level ++ [.char '\x7d']))))) := by
  rw [prettyAt]
  simp

/-- A digit begins a value. -/
theorem begins_of_isDigit {first : Char} (decimal : isDigit first = true) :
    (Letter.char first).satisfies isGap = false ∧
      Letter.char first ≠ .char ']' ∧ Letter.char first ≠ .char '\uFEFF' := by
  have other {letter : Char} (noDigit : isDigit letter = false) :
      Letter.char first ≠ .char letter :=
    fun same => ne_of_isDigit decimal noDigit (Letter.char.inj same)
  exact ⟨isGap_of_isDigit decimal, other rfl, other rfl⟩

theorem Readable.beginsValue
    {levels : Nat} {document : Json} (readable : Readable levels document) :
    BeginsValue document := by
  intro level
  cases readable with
  | null =>
      exact ⟨.char 'n', _, by rw [prettyAt]; rfl, rfl, by decide⟩
  | bool value =>
      cases value with
      | true => exact ⟨.char 't', _, by rw [prettyAt]; rfl, rfl, by decide⟩
      | false => exact ⟨.char 'f', _, by rw [prettyAt]; rfl, rfl, by decide⟩
  | int value =>
      obtain ⟨first, others, digits, decimal⟩ := exists_digitsOf_eq_cons value.natAbs
      rw [prettyAt, plainLetters, RawText.letters, Decimal.intText, String.toList_ofList, digits]
      by_cases negative : value < 0
      · exact ⟨.char '-', .char first :: others.map .char,
          by simp [Decimal.signText, negative], rfl, by decide⟩
      · exact ⟨first, others.map .char, by simp [Decimal.signText, negative],
          begins_of_isDigit decimal⟩
  | @float levels value first places written =>
      have text : ∃ rest, plainLetters (floatLiteral value) = .char first :: rest := by
        rw [plainLetters, RawText.letters, written.text]
        exact ⟨_, rfl⟩
      obtain ⟨rest, text⟩ := text
      rw [prettyAt]
      exact ⟨_, rest, text, begins_of_isDigit written.decimal⟩
  | string value =>
      exact ⟨.char '"', _, by rw [prettyAt]; rfl, rfl, by decide⟩
  | @array levels items _ =>
      cases items with
      | nil => exact ⟨.char '[', _, by rw [prettyAt], rfl, by decide⟩
      | cons first rest => exact ⟨_, _, prettyAt_array level first rest, rfl, by decide⟩
  | @object levels fields _ _ =>
      cases fields with
      | nil => exact ⟨.char '\x7b', _, by rw [prettyAt], rfl, by decide⟩
      | cons field rest =>
          exact ⟨_, _, prettyAt_object level field.1 field.2 rest, rfl, by decide⟩

theorem isWritable_array_iff {items : List Json} :
    (Json.array items).isWritable = true ↔ ∀ item ∈ items, item.isWritable = true := by
  rw [isWritable]
  induction items with
  | nil =>
      simp [areWritable]
  | cons item rest inductionHypothesis =>
      simp [areWritable, inductionHypothesis]

theorem isWritable_object_iff {fields : List (RawText × Json)} :
    (Json.object fields).isWritable = true ↔ ∀ field ∈ fields, field.2.isWritable = true := by
  rw [isWritable]
  induction fields with
  | nil =>
      simp [areFieldsWritable]
  | cons field rest inductionHypothesis =>
      simp [areFieldsWritable, inductionHypothesis]

theorem ofFields_of_nodup
    {fields : List (RawText × Json)} (nodup : (fields.map (·.1)).Nodup) :
    ofFields fields = .object fields := by
  have listed :=
    @foldl_putField_of_nodup RawText Json _ (RawText × Json) [] fields (·.1) (·.2)
      (by simpa using nodup)
  unfold ofFields
  rw [listed]
  simp

theorem readsBack_array
    {levels : Nat} {items : List Json}
    (reads : ∀ item ∈ items, ReadsBack levels item ∧ BeginsValue item) :
    ReadsBack (levels + 1) (.array items) := by
  intro level depth fuel more index within enough _
  have shallow : depth ≤ deepestNesting := by omega
  cases items with
  | nil =>
      refine ⟨index + 1 + 1, ?_⟩
      have text : prettyAt level (.array []) = [.char '[', .char ']'] := by
        rw [prettyAt]
      rw [text]
      exact readValue_emptyArray fuel shallow more index
  | cons first rest =>
      rw [prettyAt_array] at enough ⊢
      simp only [List.length_cons, List.length_append, List.length_nil, length_newLine] at enough
      simp only [List.cons_append, List.append_assoc, List.nil_append]
      obtain ⟨less, rfl⟩ : ∃ less, fuel = less + 2 := ⟨fuel - 2, by omega⟩
      obtain ⟨letter, letters, text, noGap, noEnd, _⟩ := (reads first List.mem_cons_self).2 (level + 1)
      obtain ⟨next, begun⟩ :=
        readValue_items (less + 2) shallow (level + 1) noGap noEnd
          (letters ++ (prettyItems (level + 1) rest ++
            (newLine level ++ .char ']' :: more))) index
      obtain ⟨last, read⟩ :=
        readItems_prettyItems (by omega : depth + 1 + levels ≤ deepestNesting + 1) reads
          (level + 1) level (by omega : _ ≤ less) more next []
      refine ⟨last, ?_⟩
      rw [text, List.cons_append] at read ⊢
      rw [begun, read, List.reverse_nil, List.nil_append]

theorem readsBack_object
    {levels : Nat} {fields : List (RawText × Json)} (nodup : (fields.map (·.1)).Nodup)
    (reads : ∀ field ∈ fields, ReadsBack levels field.2 ∧ BeginsValue field.2) :
    ReadsBack (levels + 1) (.object fields) := by
  intro level depth fuel more index within enough _
  have shallow : depth ≤ deepestNesting := by omega
  cases fields with
  | nil =>
      refine ⟨index + 1 + 1, ?_⟩
      have text : prettyAt level (.object []) = [.char '\x7b', .char '\x7d'] := by
        rw [prettyAt]
      rw [text]
      exact readValue_emptyObject fuel shallow more index
  | cons field rest =>
      obtain ⟨key, value⟩ := field
      rw [prettyAt_object] at enough ⊢
      simp only [List.length_cons, List.length_append, List.length_nil, length_newLine] at enough
      simp only [List.cons_append, List.append_assoc, List.nil_append]
      obtain ⟨less, rfl⟩ : ∃ less, fuel = less + 2 := ⟨fuel - 2, by omega⟩
      obtain ⟨next, begun⟩ :=
        readValue_fields (less + 2) shallow (level + 1)
          ((key.letters.flatMap spell ++ [.char '"']) ++
            .char ':' :: .char ' ' :: (prettyAt (level + 1) value ++
              (prettyFields (level + 1) rest ++
                (newLine level ++ .char '\x7d' :: more)))) index
      obtain ⟨last, read⟩ :=
        readFields_prettyFields (by omega : depth + 1 + levels ≤ deepestNesting + 1) reads
          (level + 1) level (by omega : _ ≤ less) more next []
      refine ⟨last, ?_⟩
      rw [quoted, List.cons_append] at read ⊢
      rw [begun, read, List.reverse_nil, List.nil_append, ofFields_of_nodup nodup]

theorem Readable.readsBack
    {levels : Nat} {document : Json} (readable : Readable levels document)
    (writable : document.isWritable = true) :
    ReadsBack levels document := by
  induction readable with
  | null => exact readsBack_null.deeper _
  | bool value => exact (readsBack_bool value).deeper _
  | int value =>
      rw [isWritable] at writable
      exact (readsBack_int (of_decide_eq_true writable)).deeper _
  | float written => exact (readsBack_float written).deeper _
  | string value => exact (readsBack_string value).deeper _
  | array items inductionHypothesis =>
      rw [isWritable_array_iff] at writable
      apply readsBack_array
      intro item member
      exact ⟨inductionHypothesis item member (writable item member),
        (items item member).beginsValue⟩
  | object nodup fields inductionHypothesis =>
      rw [isWritable_object_iff] at writable
      apply readsBack_object nodup
      intro field member
      exact ⟨inductionHypothesis field member (writable field member),
        (fields field member).beginsValue⟩

/-- A document that is written on lines of its own is read back as it was. -/
theorem read_pretty
    {levels : Nat} {document : Json} (readable : Readable levels document)
    (shallow : levels ≤ deepestNesting) (writable : document.isWritable = true) :
    read (document.pretty ++ ("\n" : RawText)) = .ok document := by
  have letters :
      (document.pretty ++ ("\n" : RawText)).letters = prettyAt 0 document ++ [.char '\n'] := by
    rw [pretty, RawText.letters_append, RawText.letters_ofLetters]
    rfl
  have ends : EndsValue [.char '\n'] := Or.inr ⟨[], Or.inr rfl⟩
  have enough :
      (prettyAt 0 document).length ≤
        2 * (prettyAt 0 document ++ [Letter.char '\n']).length + 1 := by
    rw [List.length_append]
    omega
  obtain ⟨first, rest, text, noGap, _, noMark⟩ := readable.beginsValue 0
  obtain ⟨last, value⟩ :=
    readable.readsBack writable 0 1 _ [.char '\n'] 0 (by omega) enough ends
  have start :
      (Rest.mk (prettyAt 0 document ++ [.char '\n']) 0).skipGaps =
        ⟨prettyAt 0 document ++ [.char '\n'], 0⟩ := by
    rw [text, List.cons_append]
    exact skipGaps_of_not_isGap noGap _ 0
  have ending : (Rest.mk [.char '\n'] last).skipGaps.letters = [] := rfl
  have unmarked : (prettyAt 0 document ++ [Letter.char '\n']).head? ≠ some (.char '\uFEFF') := by
    rw [text, List.cons_append, List.head?_cons]
    exact fun marked => noMark (Option.some.inj marked)
  unfold read
  dsimp only
  rw [letters, if_neg unmarked, start]
  simp only [bind, Except.bind, value, ending]
  rfl

end ModuleAtlas.Json
