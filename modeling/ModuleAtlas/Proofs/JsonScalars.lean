import Mathlib.Data.List.Basic
import Mathlib.Data.List.TakeWhile
import Mathlib.Tactic.MkIffOfInductiveProp
import ModuleAtlas.Json.Printer
import ModuleAtlas.Json.Reader

/-!
# Reading texts and numbers

The texts and the whole numbers of documents are read back as they were
written, whatever letters a text holds.
-/

namespace ModuleAtlas.Json

/-! ## Texts -/

theorem hexValue?_hexDigit {value : Nat} (small : value < 16) :
    hexValue? (Text.Quoted.hexDigit value) = some value := by
  have checked : ∀ value < 16, hexValue? (Text.Quoted.hexDigit value) = some value := by
    decide
  exact checked value small

theorem fourHex?_hexDigits {unit : Nat} (small : unit < 0x10000) (more : List Letter) :
    fourHex? ((Text.Quoted.hexDigits 4 unit).map .char ++ more) = some unit := by
  have digits :
      (Text.Quoted.hexDigits 4 unit).map Letter.char ++ more =
        .char (Text.Quoted.hexDigit (unit / 16 / 16 / 16 % 16)) ::
          .char (Text.Quoted.hexDigit (unit / 16 / 16 % 16)) ::
          .char (Text.Quoted.hexDigit (unit / 16 % 16)) ::
          .char (Text.Quoted.hexDigit (unit % 16)) :: more := by
    simp [Text.Quoted.hexDigits]
  rw [digits]
  unfold fourHex?
  dsimp only
  rw [hexValue?_hexDigit (Nat.mod_lt _ (by decide)), hexValue?_hexDigit (Nat.mod_lt _ (by decide)),
    hexValue?_hexDigit (Nat.mod_lt _ (by decide)), hexValue?_hexDigit (Nat.mod_lt _ (by decide))]
  show some _ = some unit
  congr 1
  omega

theorem length_hexDigits (width value : Nat) :
    (Text.Quoted.hexDigits width value).length = width := by
  induction width generalizing value with
  | zero =>
      rfl
  | succ width inductionHypothesis =>
      simp [Text.Quoted.hexDigits, inductionHypothesis]

/-- Four digits that stand for no half of a pair are one character. -/
theorem readUnicode_hexDigits
    {unit : Nat} (small : unit < 0xD800) {more : List Letter} (nonempty : more ≠ [])
    (index : Nat) :
    readUnicode ((Text.Quoted.hexDigits 4 unit).map .char ++ more) index =
      .ok (.char (Char.ofNat unit), 4) := by
  have long : ¬((Text.Quoted.hexDigits 4 unit).map Letter.char ++ more).length < 5 := by
    have positive := List.length_pos_iff.mpr nonempty
    rw [List.length_append, List.length_map, length_hexDigits]
    omega
  unfold readUnicode
  rw [if_neg long, fourHex?_hexDigits (by omega)]
  dsimp only
  rw [if_neg (by omega), letterOfUnit, dif_neg (by omega)]

/-- The quote ends a text. -/
theorem readString_quote
    (start fuel : Nat) (more : List Letter) (index : Nat) (taken : List Letter) :
    readString start (fuel + 1) ('"' :: more) index taken =
      .ok (RawText.ofLetters taken.reverse, ⟨more, index + 1⟩) := by
  rfl

/-- A character that needs no escape is read as it is. -/
theorem readString_plain
    (start fuel : Nat) {character : Char} (noQuote : character ≠ '"')
    (noBackslash : character ≠ '\\') (plain : ¬character.toNat < 0x20)
    (more : List Letter) (index : Nat) (taken : List Letter) :
    readString start (fuel + 1) (character :: more) index taken =
      readString start fuel more (index + 1) (character :: taken) := by
  conv =>
    lhs
    unfold readString
  dsimp only
  split
  · next shape => cases shape
  · next shape => exact absurd (Letter.char.inj (List.cons.inj shape).1) noQuote
  · next shape => exact absurd (Letter.char.inj (List.cons.inj shape).1) noBackslash
  · next shape => exact absurd (Letter.char.inj (List.cons.inj shape).1) noBackslash
  · next shape => exact absurd (Letter.char.inj (List.cons.inj shape).1) noBackslash
  · next shape => exact absurd (Letter.char.inj (List.cons.inj shape).1) noBackslash
  · next shape =>
    cases shape
    rw [if_neg (by simpa [Letter.satisfies] using plain)]

/-- One letter of a text is read back, however it is written. -/
theorem readString_spell
    (start fuel : Nat) (letter : Letter) {more : List Letter} (nonempty : more ≠ [])
    (index : Nat) (taken : List Letter) :
    ∃ next, readString start (fuel + 1) (spell letter ++ more) index taken =
      readString start fuel more next (letter :: taken) := by
  cases letter with
  | half value =>
      exact ⟨index + 1, rfl⟩
  | char character =>
      unfold spell escapeChar
      dsimp only
      split
      · exact ⟨_, rfl⟩
      · exact ⟨_, rfl⟩
      · exact ⟨_, rfl⟩
      · exact ⟨_, rfl⟩
      · exact ⟨_, rfl⟩
      · exact ⟨_, rfl⟩
      · exact ⟨_, rfl⟩
      · next noQuote noBackslash _ _ _ _ _ =>
        split
        · next control =>
          refine ⟨index + 2 + 4, ?_⟩
          have read :=
            readUnicode_hexDigits (by omega : character.toNat < 0xD800) nonempty (index + 1)
          show (readUnicode ((Text.Quoted.hexDigits 4 character.toNat).map Letter.char ++ more)
              (index + 1) >>= fun unit =>
            readString start fuel
              (((Text.Quoted.hexDigits 4 character.toNat).map Letter.char ++ more).drop unit.2)
              (index + 2 + unit.2) (unit.1 :: taken)) = _
          rw [read]
          show readString start fuel _ _ _ = _
          rw [List.drop_left' (by rw [List.length_map, length_hexDigits]), Char.ofNat_toNat]
        · next plain =>
          refine ⟨index + 1, ?_⟩
          simp only [Bool.false_and, Bool.false_eq_true, if_false, List.map_singleton,
            List.singleton_append]
          exact readString_plain start fuel noQuote noBackslash plain more index taken

/-- A text is read back from between its quotes. -/
theorem readString_flatMap_spell
    (start : Nat) {fuel : Nat} (text more : List Letter) (enough : text.length < fuel)
    (index : Nat) (taken : List Letter) :
    ∃ last, readString start fuel (text.flatMap spell ++ .char '"' :: more) index taken =
      .ok (RawText.ofLetters (taken.reverse ++ text), ⟨more, last⟩) := by
  induction text generalizing fuel index taken with
  | nil =>
      obtain ⟨fuel, rfl⟩ := Nat.exists_eq_add_one_of_ne_zero (Nat.ne_zero_of_lt enough)
      refine ⟨index + 1, ?_⟩
      rw [List.append_nil]
      exact readString_quote start fuel more index taken
  | cons letter text inductionHypothesis =>
      obtain ⟨fuel, rfl⟩ := Nat.exists_eq_add_one_of_ne_zero (Nat.ne_zero_of_lt enough)
      have behind : text.flatMap spell ++ .char '"' :: more ≠ [] := by
        simp
      obtain ⟨next, step⟩ := readString_spell start fuel letter behind index taken
      obtain ⟨last, read⟩ :=
        inductionHypothesis (by simpa using enough) next (letter :: taken)
      refine ⟨last, ?_⟩
      rw [List.flatMap_cons, List.append_assoc, step, read]
      simp

/-! ## Numbers -/

/-- What stands behind a value that was written: nothing, a comma or a new line. -/
def EndsValue (more : List Letter) : Prop :=
  more = [] ∨ ∃ rest, more = .char ',' :: rest ∨ more = .char '\n' :: rest

/-- A number ends where the value ends. -/
theorem run_isNumeric
    {characters : List Char} (numeric : ∀ character ∈ characters, isNumeric character = true)
    {more : List Letter} (ends : EndsValue more) :
    Letter.run isNumeric (characters.map .char ++ more) = characters := by
  refine Letter.run_append numeric ?_
  intro letter begins
  rcases ends with rfl | ⟨rest, rfl | rfl⟩
  · cases begins
  · cases begins
    rfl
  · cases begins
    rfl

theorem isNumeric_of_isDigit {digit : Char} (decimal : isDigit digit = true) :
    isNumeric digit = true := by
  simp [isNumeric, decimal]

theorem isDigit_of_mem_digitsOf {value : Nat} {digit : Char}
    (member : digit ∈ Decimal.digitsOf value) : isDigit digit = true := by
  have decimal : digit.isDigit = true :=
    Nat.isDigit_of_mem_toDigits (by decide) (by decide) member
  simp only [Char.isDigit, Bool.and_eq_true, decide_eq_true_eq] at decimal
  simp only [isDigit, Bool.and_eq_true, decide_eq_true_eq]
  exact decimal

/-- A number begins with a zero only if it is zero. -/
theorem head?_digitsOf {value : Nat} (positive : 0 < value) :
    (Decimal.digitsOf value).head? ≠ some '0' := by
  unfold Decimal.digitsOf
  induction value using Nat.strongRecOn with
  | ind value inductionHypothesis =>
      by_cases single : value < 10
      · rw [Nat.toDigits_of_lt_base single]
        have checked : ∀ value < 10, 0 < value → [Nat.digitChar value].head? ≠ some '0' := by
          decide
        exact checked value single positive
      · rw [Nat.toDigits_of_base_le (by decide) (by omega),
          List.head?_append_of_ne_nil _ Nat.toDigits_ne_nil]
        exact inductionHypothesis (value / 10) (by omega) (by omega)

theorem digitsValue_digitsOf (value : Nat) : digitsValue (Decimal.digitsOf value) = value := by
  have read := @Nat.ofDigitChars_ten_toDigits value
  rw [Nat.ofDigitChars_eq_foldl] at read
  simp only [Nat.mul_comm 10] at read
  exact read

theorem length_digitsOf_le
    {value most : Nat} (positive : 0 < most) (small : value < Nat.pow 10 most) :
    (Decimal.digitsOf value).length ≤ most :=
  (Nat.length_toDigits_le_iff (by decide) positive).mpr small

/-- The digits of a number are all that is taken for its whole part. -/
theorem wholePart_digitsOf (value : Nat) :
    wholePart (Decimal.digitsOf value) = Decimal.digitsOf value := by
  by_cases positive : 0 < value
  · unfold wholePart
    split
    · next rest shape =>
      have zero := head?_digitsOf positive
      rw [shape] at zero
      exact absurd rfl zero
    · exact List.takeWhile_eq_self_iff.mpr fun _ => @isDigit_of_mem_digitsOf value _
  · obtain rfl : value = 0 := by omega
    rfl

theorem exists_digitsOf_eq_cons (value : Nat) :
    ∃ first others, Decimal.digitsOf value = first :: others ∧ isDigit first = true := by
  cases digits : Decimal.digitsOf value with
  | nil => exact absurd digits Nat.toDigits_ne_nil
  | cons first others =>
      have member : first ∈ Decimal.digitsOf value := by
        rw [digits]
        exact List.mem_cons_self
      exact ⟨first, others, rfl, isDigit_of_mem_digitsOf member⟩

theorem head?_digitsOf_ne_minus (value : Nat) :
    ((Decimal.digitsOf value).head? == some '-') = false := by
  obtain ⟨first, others, digits, decimal⟩ := exists_digitsOf_eq_cons value
  rw [digits, List.head?_cons, beq_eq_false_iff_ne]
  intro minus
  rw [Option.some.inj minus] at decimal
  exact absurd decimal (by decide)

theorem isNumeric_of_mem_intText {value : Int} {character : Char}
    (member : character ∈ (Decimal.intText value).toList) : isNumeric character = true := by
  rw [Decimal.intText, String.toList_ofList] at member
  rcases List.mem_append.mp member with inSign | inDigits
  · by_cases negative : value < 0
    · simp only [negative, decide_true, Decimal.signText, if_true, List.mem_singleton] at inSign
      rw [inSign]
      rfl
    · simp [negative, Decimal.signText] at inSign
  · exact isNumeric_of_isDigit (isDigit_of_mem_digitsOf inDigits)

/-- A whole number is read back as it was written. -/
theorem readNumber?_intText
    {value : Int} (writable : value.natAbs < Nat.pow 10 Reading.mostDigits)
    {more : List Letter} (ends : EndsValue more) (index : Nat) :
    ∃ last, readNumber? ⟨plainLetters (Decimal.intText value) ++ more, index⟩ =
      some (.ok (.int value, ⟨more, last⟩)) := by
  have characters :
      Letter.run isNumeric (plainLetters (Decimal.intText value) ++ more) =
        (Decimal.intText value).toList :=
    run_isNumeric (fun _ => isNumeric_of_mem_intText) ends
  have whole := wholePart_digitsOf value.natAbs
  have nonempty : (Decimal.digitsOf value.natAbs).isEmpty = false :=
    List.isEmpty_eq_false_iff.mpr Nat.toDigits_ne_nil
  have short : ¬Reading.mostDigits < (Decimal.digitsOf value.natAbs).length :=
    Nat.not_lt.mpr (length_digitsOf_le (by decide) writable)
  have behind :
      (plainLetters (Decimal.intText value) ++ more).drop (Decimal.intText value).toList.length =
        more :=
    List.drop_left' (by simp [plainLetters, RawText.letters])
  refine ⟨index + (Decimal.intText value).toList.length, ?_⟩
  simp only [readNumber?, characters, Rest.advance]
  by_cases negative : value < 0
  · have magnitude : -(value.natAbs : Int) = value := by omega
    have text : (Decimal.intText value).toList = '-' :: Decimal.digitsOf value.natAbs := by
      simp [Decimal.intText, negative, Decimal.signText]
    rw [text] at behind ⊢
    simp only [List.head?_cons, beq_self_eq_true, if_true, List.drop_one, List.tail_cons, whole,
      nonempty, Bool.false_eq_true, if_false, List.drop_length, fractionPart, List.isEmpty_nil,
      exponentPart?, Option.map_none, Option.getD_none, Option.isNone_none, Bool.and_self, short,
      digitsValue_digitsOf, magnitude]
    rw [Nat.add_comm 1, ← List.length_cons, behind]
  · have magnitude : (value.natAbs : Int) = value := by omega
    have text : (Decimal.intText value).toList = Decimal.digitsOf value.natAbs := by
      simp [Decimal.intText, negative, Decimal.signText]
    rw [text] at behind ⊢
    simp only [head?_digitsOf_ne_minus, whole, nonempty, Bool.false_eq_true, if_false,
      List.drop_length, fractionPart, List.isEmpty_nil, if_true, exponentPart?, Option.map_none,
      Option.getD_none, Option.isNone_none, Bool.and_self, short, digitsValue_digitsOf, magnitude]
    simp only [Nat.zero_add, Nat.add_zero, behind]

theorem wholePart_point {first : Char} (decimal : isDigit first = true) (more : List Char) :
    wholePart (first :: '.' :: more) = [first] := by
  unfold wholePart
  split
  · next shape => rw [(List.cons.inj shape).1]
  · have stop : isDigit '.' = false := rfl
    rw [List.takeWhile_cons_of_pos decimal, List.takeWhile_cons_of_neg (by rw [stop]; simp)]

/-- A floating-point number that is written with one digit before the point and
some behind it, which are those of the same number. -/
@[mk_iff]
structure HasPlaces (value : Binary64) (first : Char) (places : List Char) : Prop where
  decimal : isDigit first = true
  decimals : places.all isDigit = true
  nonempty : places ≠ []
  text : (floatLiteral value).toList = first :: '.' :: places
  same :
    Binary64.ofDecimal false (digitsValue (first :: places)) (0 - (places.length : Int)) = value

/-- A number with places is read back as it was written. -/
theorem readNumber?_places
    {value : Binary64} {first : Char} {places : List Char}
    (written : HasPlaces value first places)
    {more : List Letter} (ends : EndsValue more) (index : Nat) :
    ∃ last, readNumber? ⟨plainLetters (floatLiteral value) ++ more, index⟩ =
      some (.ok (.float value, ⟨more, last⟩)) := by
  obtain ⟨decimal, decimals, nonempty, text, same⟩ := written
  have numeric : ∀ character ∈ (floatLiteral value).toList, isNumeric character = true := by
    rw [text]
    intro character member
    simp only [List.mem_cons] at member
    rcases member with rfl | rfl | inPlaces
    · exact isNumeric_of_isDigit decimal
    · rfl
    · exact isNumeric_of_isDigit (List.all_eq_true.mp decimals _ inPlaces)
  have characters :
      Letter.run isNumeric (plainLetters (floatLiteral value) ++ more) =
        (floatLiteral value).toList :=
    run_isNumeric numeric ends
  have sign : (some first == some '-') = false := by
    rw [beq_eq_false_iff_ne]
    intro minus
    rw [Option.some.inj minus] at decimal
    exact absurd decimal (by decide)
  have fraction : fractionPart ('.' :: places) = places :=
    List.takeWhile_eq_self_iff.mpr (List.all_eq_true.mp decimals)
  have notEmpty : places.isEmpty = false := List.isEmpty_eq_false_iff.mpr nonempty
  have length : (floatLiteral value).toList.length = 0 + 1 + (places.length + 1) + 0 := by
    rw [text, List.length_cons, List.length_cons]
    omega
  have behind :
      (plainLetters (floatLiteral value) ++ more).drop (0 + 1 + (places.length + 1) + 0) = more :=
    List.drop_left' (by rw [← length]; simp [plainLetters, RawText.letters])
  refine ⟨index + (0 + 1 + (places.length + 1) + 0), ?_⟩
  simp only [readNumber?, characters, text, List.head?_cons, sign, Bool.false_eq_true, if_false,
    wholePart_point decimal, List.isEmpty_cons, List.length_singleton, List.drop_succ_cons,
    List.drop_zero, fraction, notEmpty, List.drop_length, exponentPart?, Option.map_none,
    Option.getD_none, Bool.false_and, List.singleton_append, Rest.advance, behind, same]

end ModuleAtlas.Json
