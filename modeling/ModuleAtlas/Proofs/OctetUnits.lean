import ModuleAtlas.Text.Utf8

/-!
# Units of octets

Octets are read unit by unit.  What a unit is can be told from the octets of the
characters alone: it is a character, or else the longest run that begins a
character, or else a single octet.  There is one way to cut octets into units, and
reading finds it.
-/

namespace ModuleAtlas.Text.Utf8

/-! ## Octets of characters -/

/-- Octets within the bounds of the tables, with the code point that they spell. -/
inductive Spells : List UInt8 → Nat → Prop
  | one {first : UInt8} {point : Nat} :
      first.toNat < 0x80 → point = first.toNat → Spells [first] point
  | two {first second : UInt8} {point : Nat} :
      0xC2 ≤ first.toNat → first.toNat ≤ 0xDF → isContinuation second →
      point = (first.toNat - 0xC0) * 64 + payload second →
      Spells [first, second] point
  | three {first second third : UInt8} {point : Nat} :
      0xE0 ≤ first.toNat → first.toNat ≤ 0xEF →
      secondFits first second → isContinuation third →
      point = ((first.toNat - 0xE0) * 64 + payload second) * 64 + payload third →
      Spells [first, second, third] point
  | four {first second third fourth : UInt8} {point : Nat} :
      0xF0 ≤ first.toNat → first.toNat ≤ 0xF4 →
      secondFits first second → isContinuation third → isContinuation fourth →
      point = (((first.toNat - 0xF0) * 64 + payload second) * 64 + payload third) * 64
        + payload fourth →
      Spells [first, second, third, fourth] point

theorem within_iff (lower octet upper : UInt8) :
    (decide (lower ≤ octet) && decide (octet ≤ upper)) = true ↔
      lower.toNat ≤ octet.toNat ∧ octet.toNat ≤ upper.toNat := by
  simp only [Bool.and_eq_true, decide_eq_true_eq, UInt8.le_iff_toNat_le]

theorem isContinuation_iff (octet : UInt8) :
    isContinuation octet ↔ 0x80 ≤ octet.toNat ∧ octet.toNat ≤ 0xBF :=
  within_iff 0x80 octet 0xBF

/-- Behind four first octets the second one is bounded more closely. -/
theorem secondFits_iff (first second : UInt8) :
    secondFits first second ↔
      isContinuation second ∧
        (first.toNat = 0xE0 → 0xA0 ≤ second.toNat) ∧
        (first.toNat = 0xED → second.toNat ≤ 0x9F) ∧
        (first.toNat = 0xF0 → 0x90 ≤ second.toNat) ∧
        (first.toNat = 0xF4 → second.toNat ≤ 0x8F) := by
  simp only [secondFits, beq_iff_eq, ← UInt8.toNat_inj, UInt8.reduceToNat]
  repeat' split
  all_goals
    simp only [within_iff, isContinuation_iff, UInt8.reduceToNat]
    omega

/-- Every character has octets within the bounds. -/
theorem spells_utf8EncodeChar (value : Char) :
    Spells (String.utf8EncodeChar value) value.toNat := by
  have valid := value.valid
  have point : value.val.toNat = value.toNat := rfl
  unfold String.utf8EncodeChar
  simp only [point] at valid ⊢
  split
  · refine .one ?_ ?_ <;> simp only [UInt8.toNat_ofNat'] <;> omega
  split
  · refine .two ?_ ?_ ?_ ?_ <;>
      simp only [isContinuation_iff, payload, UInt8.toNat_ofNat'] <;> omega
  split
  · refine .three ?_ ?_ ?_ ?_ ?_ <;>
      simp only [secondFits_iff, isContinuation_iff, payload, UInt8.toNat_ofNat'] <;> omega
  · refine .four ?_ ?_ ?_ ?_ ?_ ?_ <;>
      simp only [secondFits_iff, isContinuation_iff, payload, UInt8.toNat_ofNat'] <;> omega

/-- The bounds keep surrogates and everything past the last code point out. -/
theorem Spells.isValidChar
    {octets : List UInt8} {point : Nat} (spells : Spells octets point) :
    point.isValidChar := by
  cases spells with
  | one low spelled =>
      exact .inl (by omega)
  | two lower upper second spelled =>
      simp only [payload] at spelled
      exact .inl (by omega)
  | three lower upper second third spelled =>
      simp only [secondFits_iff, isContinuation_iff, payload] at second spelled
      simp only [Nat.isValidChar]
      omega
  | four lower upper second third fourth spelled =>
      simp only [secondFits_iff, isContinuation_iff, payload] at second spelled
      exact .inr (by omega)

/-- Octets within the bounds are those of the character that they spell. -/
theorem Spells.utf8EncodeChar_eq
    {octets : List UInt8} {point : Nat} (spells : Spells octets point) :
    String.utf8EncodeChar (Char.ofNat point) = octets := by
  have value : (Char.ofNat point).val.toNat = point := by
    rw [Char.ofNat, dif_pos spells.isValidChar]
    rfl
  unfold String.utf8EncodeChar
  simp only [value]
  clear value
  cases spells with
  | one low spelled =>
      rw [if_pos (by omega)]
      simp only [List.cons.injEq, ← UInt8.toNat_inj, UInt8.toNat_ofNat', and_true]
      omega
  | two lower upper second spelled =>
      simp only [isContinuation_iff, payload] at second spelled
      rw [if_neg (by omega), if_pos (by omega)]
      simp only [List.cons.injEq, ← UInt8.toNat_inj, UInt8.toNat_ofNat', and_true]
      omega
  | three lower upper second third spelled =>
      have continues := ((secondFits_iff _ _).mp second).1
      simp only [isContinuation_iff, payload] at continues third spelled
      have long : ¬ point ≤ 0x7FF := by
        rw [secondFits_iff] at second
        omega
      clear second
      rw [if_neg (by omega), if_neg long, if_pos (by omega)]
      simp only [List.cons.injEq, ← UInt8.toNat_inj, UInt8.toNat_ofNat', and_true]
      omega
  | four lower upper second third fourth spelled =>
      have continues := ((secondFits_iff _ _).mp second).1
      simp only [isContinuation_iff, payload] at continues third fourth spelled
      have long : ¬ point ≤ 0xFFFF := by
        rw [secondFits_iff] at second
        omega
      clear second
      rw [if_neg (by omega), if_neg (by omega), if_neg long]
      simp only [List.cons.injEq, ← UInt8.toNat_inj, UInt8.toNat_ofNat', and_true]
      omega

/-- No octets begin with two characters. -/
theorem eq_of_utf8EncodeChar_prefix
    {octets : List UInt8} {value other : Char}
    (begins : String.utf8EncodeChar value <+: octets)
    (also : String.utf8EncodeChar other <+: octets) :
    value = other := by
  obtain ⟨tail, rfl⟩ := begins
  obtain ⟨behind, same⟩ := also
  have read := ByteArray.utf8DecodeChar?_utf8EncodeChar_append (b := tail.toByteArray) (c := value)
  rw [← List.toByteArray_append, ← same, List.toByteArray_append,
    ByteArray.utf8DecodeChar?_utf8EncodeChar_append] at read
  exact (Option.some.inj read).symm

/-! ## Beginnings of characters -/

/-- Some character's octets begin with these. -/
def Begins (octets : List UInt8) : Prop :=
  ∃ value, octets <+: String.utf8EncodeChar value

/-- Some character's octets begin with these and go on behind them. -/
def IsUnfinished (octets : List UInt8) : Prop :=
  octets ≠ [] ∧ ∃ value, octets <+: String.utf8EncodeChar value ∧
    octets ≠ String.utf8EncodeChar value

theorem Begins.of_append {octets tail : List UInt8} (begins : Begins (octets ++ tail)) :
    Begins octets := by
  obtain ⟨value, within⟩ := begins
  exact ⟨value, (List.prefix_append octets tail).trans within⟩

theorem Begins.exists_spells {octets : List UInt8} (begins : Begins octets) :
    ∃ tail point, Spells (octets ++ tail) point := by
  obtain ⟨value, tail, whole⟩ := begins
  exact ⟨tail, value.toNat, whole ▸ spells_utf8EncodeChar value⟩

theorem Spells.isUnfinished
    {octets tail : List UInt8} {next : UInt8} {point : Nat}
    (spells : Spells (octets ++ next :: tail) point) (begun : octets ≠ []) :
    IsUnfinished octets := by
  refine ⟨begun, Char.ofNat point, ?_, ?_⟩
  · rw [spells.utf8EncodeChar_eq]
    exact List.prefix_append octets _
  · rw [spells.utf8EncodeChar_eq]
    simp

/-- An unfinished run holds no whole character at its beginning. -/
theorem IsUnfinished.not_utf8EncodeChar_prefix
    {octets : List UInt8} (unfinished : IsUnfinished octets) (value : Char) :
    ¬ String.utf8EncodeChar value <+: octets := by
  obtain ⟨_, other, within, short⟩ := unfinished
  intro begins
  obtain rfl := eq_of_utf8EncodeChar_prefix (begins.trans within) List.prefix_rfl
  exact short (within.eq_of_length_le begins.length_le)

theorem IsUnfinished.of_append
    {octets tail : List UInt8} (unfinished : IsUnfinished (octets ++ tail)) (begun : octets ≠ []) :
    IsUnfinished octets := by
  obtain ⟨value, within, _⟩ := unfinished.2
  refine ⟨begun, value, (List.prefix_append octets tail).trans within, ?_⟩
  rintro rfl
  exact unfinished.not_utf8EncodeChar_prefix value (List.prefix_append _ tail)

theorem Begins.first_bounds {first : UInt8} (begins : Begins [first]) :
    first.toNat < 0x80 ∨ 0xC2 ≤ first.toNat ∧ first.toNat ≤ 0xF4 := by
  obtain ⟨tail, point, spells⟩ := begins.exists_spells
  cases spells <;> omega

theorem Begins.second_isContinuation {first second : UInt8} (begins : Begins [first, second]) :
    isContinuation second := by
  obtain ⟨tail, point, spells⟩ := begins.exists_spells
  cases spells with
  | two _ _ fits _ => exact fits
  | three _ _ fits _ _ => exact ((secondFits_iff _ _).mp fits).1
  | four _ _ fits _ _ _ => exact ((secondFits_iff _ _).mp fits).1

theorem Begins.second_fits
    {first second : UInt8} (begins : Begins [first, second]) (long : 0xE0 ≤ first.toNat) :
    secondFits first second := by
  obtain ⟨tail, point, spells⟩ := begins.exists_spells
  cases spells with
  | two _ upper _ _ => omega
  | three _ _ fits _ _ => exact fits
  | four _ _ fits _ _ _ => exact fits

theorem Begins.third_isContinuation
    {first second third : UInt8} (begins : Begins [first, second, third]) :
    isContinuation third := by
  obtain ⟨tail, point, spells⟩ := begins.exists_spells
  cases spells with
  | three _ _ _ fits _ => exact fits
  | four _ _ _ fits _ _ => exact fits

theorem Begins.fourth_isContinuation
    {first second third fourth : UInt8} (begins : Begins [first, second, third, fourth]) :
    isContinuation fourth := by
  obtain ⟨tail, point, spells⟩ := begins.exists_spells
  cases spells with
  | four _ _ _ _ fits _ => exact fits

/-! ## Units -/

/-- Octets that are skipped together: no character is there to be read, and they are
the longest run that begins one, or a single octet where no run does. -/
structure IsDamage (unit rest : List UInt8) : Prop where
  nonempty : unit ≠ []
  unreadable : ∀ value, ¬ String.utf8EncodeChar value <+: unit ++ rest
  begun : Begins unit ∨ unit.length = 1
  longest : ∀ next tail, rest = next :: tail → ¬ Begins (unit ++ [next])

/-- A unit with the octets behind it and the character that it shows as. -/
inductive UnitShows : List UInt8 → List UInt8 → Char → Prop
  | character (value : Char) (rest : List UInt8) :
      UnitShows (String.utf8EncodeChar value) rest value
  | damage {unit rest : List UInt8} :
      IsDamage unit rest → UnitShows unit rest '\uFFFD'

theorem Spells.unitShows
    {unit : List UInt8} {point : Nat} (spells : Spells unit point) (rest : List UInt8) :
    UnitShows unit rest (Char.ofNat point) := by
  have shows := UnitShows.character (Char.ofNat point) rest
  rwa [spells.utf8EncodeChar_eq] at shows

/-- An octet that begins no character is damage on its own. -/
theorem isDamage_of_not_begins {octet : UInt8} (stray : ¬ Begins [octet]) (rest : List UInt8) :
    IsDamage [octet] rest where
  nonempty := List.cons_ne_nil octet []
  unreadable := by
    intro value begins
    have long := List.length_pos_iff.mpr (String.utf8EncodeChar_ne_nil (c := value))
    have front := List.prefix_append [octet] rest
    exact stray ⟨value, List.prefix_of_prefix_length_le front begins long⟩
  begun := .inr rfl
  longest := fun _ _ _ begins => stray begins.of_append

/-- An unfinished run is damage where the next octet does not go on with it. -/
theorem IsUnfinished.isDamage
    {unit rest : List UInt8} (unfinished : IsUnfinished unit)
    (longest : ∀ next tail, rest = next :: tail → ¬ Begins (unit ++ [next])) :
    IsDamage unit rest where
  nonempty := unfinished.1
  unreadable := by
    intro value begins
    have front := List.prefix_append unit rest
    -- a character there would end inside the run or go on with it
    rcases Nat.le_total (String.utf8EncodeChar value).length unit.length with short | long
    · exact unfinished.not_utf8EncodeChar_prefix value
        (List.prefix_of_prefix_length_le begins front short)
    · obtain ⟨beyond, whole⟩ := List.prefix_of_prefix_length_le front begins long
      cases beyond with
      | nil =>
          rw [List.append_nil] at whole
          exact unfinished.not_utf8EncodeChar_prefix value (whole ▸ List.prefix_rfl)
      | cons next others =>
          rw [← whole, List.prefix_append_right_inj] at begins
          obtain ⟨tail, behind⟩ := begins
          refine longest next (others ++ tail) behind.symm ⟨value, others, ?_⟩
          rw [← whole, List.append_assoc, List.singleton_append]
  begun := .inl (unfinished.2.imp fun _ within => within.1)
  longest := longest

theorem IsUnfinished.unitShows_cut {unit : List UInt8} (unfinished : IsUnfinished unit) :
    UnitShows unit [] '\uFFFD' :=
  .damage (unfinished.isDamage fun _ _ more => nomatch more)

theorem IsUnfinished.unitShows_broken
    {unit rest : List UInt8} {next : UInt8} (unfinished : IsUnfinished unit)
    (breaks : ¬ Begins (unit ++ [next])) :
    UnitShows unit (next :: rest) '\uFFFD' := by
  refine .damage (unfinished.isDamage ?_)
  rintro _ _ ⟨rfl, rfl⟩
  exact breaks

/-! ## Reading a unit -/

section Leads

variable {first second third : UInt8}

theorem exists_secondFits (first : UInt8) : ∃ second, secondFits first second := by
  by_cases low : first.toNat = 0xE0 ∨ first.toNat = 0xF0
  · refine ⟨0xA0, (secondFits_iff _ _).mpr ⟨rfl, ?_⟩⟩
    simp only [UInt8.reduceToNat]
    omega
  · refine ⟨0x80, (secondFits_iff _ _).mpr ⟨rfl, ?_⟩⟩
    simp only [UInt8.reduceToNat]
    omega

theorem isUnfinished_third
    (lower : 0xF0 ≤ first.toNat) (upper : first.toNat ≤ 0xF4)
    (fits : secondFits first second) (continues : isContinuation third) :
    IsUnfinished [first, second, third] := by
  have spells : Spells ([first, second, third] ++ [0x80]) _ :=
    .four lower upper fits continues rfl rfl
  exact spells.isUnfinished (List.cons_ne_nil _ _)

theorem isUnfinished_second
    (lower : 0xE0 ≤ first.toNat) (upper : first.toNat ≤ 0xF4) (fits : secondFits first second) :
    IsUnfinished [first, second] := by
  by_cases three : first.toNat ≤ 0xEF
  · have spells : Spells ([first, second] ++ [0x80]) _ :=
      .three lower three fits rfl rfl
    exact spells.isUnfinished (List.cons_ne_nil _ _)
  · have longer : IsUnfinished ([first, second] ++ [0x80]) :=
      isUnfinished_third (by omega) upper fits rfl
    exact longer.of_append (List.cons_ne_nil _ _)

theorem isUnfinished_first (lower : 0xC2 ≤ first.toNat) (upper : first.toNat ≤ 0xF4) :
    IsUnfinished [first] := by
  by_cases two : first.toNat ≤ 0xDF
  · have spells : Spells ([first] ++ [0x80]) _ :=
      .two lower two rfl rfl
    exact spells.isUnfinished (List.cons_ne_nil _ _)
  · obtain ⟨second, fits⟩ := exists_secondFits first
    have longer : IsUnfinished ([first] ++ [second]) :=
      isUnfinished_second (by omega) upper fits
    exact longer.of_append (List.cons_ne_nil _ _)

end Leads

/-- What is read next is a unit, and the count says how long it is. -/
theorem unitShows_readPiece (first : UInt8) (rest : List UInt8) :
    UnitShows (first :: rest.take (readPiece first rest).2) (rest.drop (readPiece first rest).2)
      (readPiece first rest).1.shown := by
  fun_cases readPiece first rest <;>
    simp only [within_iff, UInt8.lt_iff_toNat_lt, UInt8.reduceToNat] at *
  -- characters of one to four octets
  case case1 low =>
    exact (Spells.one low rfl).unitShows rest
  case case3 second behind continues _ lead =>
    exact (Spells.two lead.1 lead.2 continues rfl).unitShows behind
  case case7 second fits third behind continues _ _ lead =>
    exact (Spells.three lead.1 lead.2 fits continues rfl).unitShows behind
  case case13 second fits third continues fourth behind ends _ _ _ lead =>
    exact (Spells.four lead.1 lead.2 fits continues ends rfl).unitShows behind
  -- the octets end behind one, two or three octets of a character
  case case2 _ lead | case5 _ _ lead | case10 _ _ _ lead =>
    exact (isUnfinished_first (by omega) (by omega)).unitShows_cut
  case case6 second fits _ _ lead | case11 second fits _ _ _ lead =>
    exact (isUnfinished_second (by omega) (by omega) fits).unitShows_cut
  case case12 second fits third continues _ _ _ lead =>
    exact (isUnfinished_third lead.1 lead.2 fits continues).unitShows_cut
  -- the next octet does not go on with the character
  case case4 second behind breaks _ lead =>
    refine (isUnfinished_first lead.1 (by omega)).unitShows_broken fun begins => ?_
    exact breaks begins.second_isContinuation
  case case9 second behind breaks _ _ lead | case16 second behind breaks _ _ _ lead =>
    refine (isUnfinished_first (by omega) (by omega)).unitShows_broken fun begins => ?_
    exact breaks (begins.second_fits (by omega))
  case case8 second fits third behind breaks _ _ lead
      | case15 second fits third behind breaks _ _ _ lead =>
    refine (isUnfinished_second (by omega) (by omega) fits).unitShows_broken fun begins => ?_
    exact breaks begins.third_isContinuation
  case case14 second fits third continues fourth behind breaks _ _ _ lead =>
    refine (isUnfinished_third lead.1 lead.2 fits continues).unitShows_broken fun begins => ?_
    exact breaks begins.fourth_isContinuation
  -- no character begins with the octet
  case case17 =>
    refine .damage (isDamage_of_not_begins (fun begins => ?_) rest)
    have bounds := begins.first_bounds
    omega

/-! ## Uniqueness -/

/-- Of two damaged units at one place neither reaches further than the other. -/
theorem IsDamage.length_le
    {unit rest other behind : List UInt8}
    (damage : IsDamage unit rest) (also : IsDamage other behind)
    (same : unit ++ rest = other ++ behind) :
    other.length ≤ unit.length := by
  -- were the other unit longer, it would begin a character, and so would this one together
  -- with the octet behind it
  rcases List.append_eq_append_iff.mp same with ⟨beyond, longer, within⟩ | ⟨_, shorter, _⟩
  · cases beyond with
    | nil =>
        exact Nat.le_of_eq (by rw [longer, List.append_nil])
    | cons next more =>
        rcases also.begun with begins | single
        · rw [longer, List.append_cons] at begins
          exact absurd begins.of_append (damage.longest next (more ++ behind) within)
        · have nonempty := List.length_pos_iff.mpr damage.nonempty
          rw [longer, List.length_append, List.length_cons] at single
          omega
  · rw [shorter, List.length_append]
    omega

theorem UnitShows.nonempty
    {unit rest : List UInt8} {shown : Char} (shows : UnitShows unit rest shown) :
    unit ≠ [] := by
  cases shows with
  | character => exact String.utf8EncodeChar_ne_nil
  | damage damaged => exact damaged.nonempty

/-- At one place there is one unit. -/
theorem UnitShows.unique
    {unit rest other behind : List UInt8} {shown alike : Char}
    (shows : UnitShows unit rest shown) (also : UnitShows other behind alike)
    (same : unit ++ rest = other ++ behind) :
    unit = other ∧ shown = alike := by
  cases shows with
  | character =>
      cases also with
      | character =>
          obtain rfl := eq_of_utf8EncodeChar_prefix ⟨rest, rfl⟩ ⟨behind, same.symm⟩
          exact ⟨rfl, rfl⟩
      | damage damaged =>
          exact absurd ⟨rest, same⟩ (damaged.unreadable shown)
  | damage damaged =>
      cases also with
      | character =>
          exact absurd ⟨behind, same.symm⟩ (damaged.unreadable alike)
      | damage more =>
          have lengths := Nat.le_antisymm (more.length_le damaged same.symm)
            (damaged.length_le more same)
          exact ⟨(List.append_inj same lengths).1, rfl⟩

/-! ## Texts of octets -/

/-- The characters that octets show as, one for each unit. -/
inductive ShowsAs : List UInt8 → List Char → Prop
  | nil : ShowsAs [] []
  | cons {octets unit rest : List UInt8} {shown : Char} {others : List Char} :
      octets = unit ++ rest → UnitShows unit rest shown → ShowsAs rest others →
      ShowsAs octets (shown :: others)

theorem ShowsAs.unique
    {octets : List UInt8} {characters others : List Char}
    (shows : ShowsAs octets characters) (also : ShowsAs octets others) :
    characters = others := by
  induction shows generalizing others with
  | nil =>
      cases also with
      | nil => rfl
      | cons split unitShows _ =>
          exact absurd (List.append_eq_nil_iff.mp split.symm).1 unitShows.nonempty
  | cons split unitShows _ inductionHypothesis =>
      cases also with
      | nil =>
          exact absurd (List.append_eq_nil_iff.mp split.symm).1 unitShows.nonempty
      | cons splitAlso unitShowsAlso rest =>
          have same := split.symm.trans splitAlso
          obtain ⟨rfl, rfl⟩ := unitShows.unique unitShowsAlso same
          rw [List.append_cancel_left_eq] at same
          rw [inductionHypothesis (same ▸ rest)]

/-- No unit is empty, so there are no more characters than octets. -/
theorem ShowsAs.length_le
    {octets : List UInt8} {characters : List Char} (shows : ShowsAs octets characters) :
    characters.length ≤ octets.length := by
  induction shows with
  | nil => exact Nat.le_refl 0
  | cons split unitShows _ inductionHypothesis =>
      have nonempty := List.length_pos_iff.mpr unitShows.nonempty
      rw [split, List.length_append, List.length_cons]
      omega

theorem showsAs_flatMap_utf8EncodeChar (characters : List Char) :
    ShowsAs (characters.flatMap String.utf8EncodeChar) characters := by
  induction characters with
  | nil => exact .nil
  | cons value others inductionHypothesis =>
      exact .cons List.flatMap_cons (.character value _) inductionHypothesis

theorem showsAs_pieces (octets : List UInt8) :
    ShowsAs octets ((pieces octets).map fun piece => piece.1.shown) := by
  induction octets using pieces.induct with
  | case1 =>
      rw [pieces]
      exact .nil
  | case2 first rest step inductionHypothesis =>
      rw [pieces]
      refine .cons ?_ (unitShows_readPiece first rest) inductionHypothesis
      rw [List.cons_append, List.take_append_drop]

/-- Reading cuts the octets into their units. -/
theorem decodeLossy_eq_iff (octets : List UInt8) (text : String) :
    decodeLossy octets = text ↔ ShowsAs octets text.toList := by
  have shows : ShowsAs octets (decodeLossy octets).toList := by
    rw [decodeLossy, String.toList_ofList]
    exact showsAs_pieces octets
  constructor
  · rintro rfl
    exact shows
  · intro also
    exact String.toList_injective (shows.unique also)

end ModuleAtlas.Text.Utf8
