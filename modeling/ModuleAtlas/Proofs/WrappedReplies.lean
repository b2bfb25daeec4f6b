import Mathlib.Data.List.TakeWhile
import ModuleAtlas.Report.Enrichment

/-!
# Wrapped replies

A reply holds its object between fences, or from the first opening brace to the
last closing one.  What a reply says around an object changes nothing: an object
that no line break with a fence behind it cuts short is taken whole out of the
fences, and without fences whole out of the text around it.
-/

namespace ModuleAtlas.Enrichment

variable {characters before body document after closing : List Letter}

/-! ## Closing fences -/

/-- A line break from which only blanks lead to a fence. -/
def Closes (letters : List Letter) : Prop :=
  ∃ blanks rest, letters = .char '\n' :: (blanks ++ (fence ++ rest)) ∧
    ∀ blank ∈ blanks, isBlank blank = true

/-- The text closes a fence somewhere. -/
def HoldsClosing (letters : List Letter) : Prop :=
  ∃ before after, letters = before ++ after ∧ Closes after

theorem dropWhile_isBlank_append_fence
    {blanks : List Letter} (blank : ∀ letter ∈ blanks, isBlank letter = true)
    (rest : List Letter) :
    (blanks ++ (fence ++ rest)).dropWhile isBlank = fence ++ rest := by
  rw [List.dropWhile_append_of_pos blank]
  rfl

theorem closes_cons_iff {letter : Letter} {rest : List Letter} :
    Closes (letter :: rest) ↔
      (letter = .char '\n' && fence.isPrefixOf (rest.dropWhile isBlank)) = true := by
  rw [Bool.and_eq_true, decide_eq_true_eq, List.isPrefixOf_iff_prefix]
  constructor
  · rintro ⟨blanks, more, shape, blank⟩
    obtain ⟨rfl, rfl⟩ := List.cons.inj shape
    rw [dropWhile_isBlank_append_fence blank]
    exact ⟨rfl, List.prefix_append fence more⟩
  · rintro ⟨rfl, more, shape⟩
    refine ⟨rest.takeWhile isBlank, more, ?_, fun _ => List.mem_takeWhile_imp⟩
    rw [shape, List.takeWhile_append_dropWhile]

theorem not_holdsClosing_nil : ¬HoldsClosing [] := by
  rintro ⟨before, after, shape, blanks, rest, rfl, _⟩
  simp at shape

theorem holdsClosing_cons_iff {letter : Letter} {rest : List Letter} :
    HoldsClosing (letter :: rest) ↔ Closes (letter :: rest) ∨ HoldsClosing rest := by
  constructor
  · rintro ⟨before, after, shape, closes⟩
    cases before with
    | nil =>
        rw [List.nil_append] at shape
        exact Or.inl (shape ▸ closes)
    | cons first before =>
        exact Or.inr ⟨before, after, (List.cons.inj shape).2, closes⟩
  · rintro (closes | ⟨before, after, rfl, closes⟩)
    · exact ⟨[], _, rfl, closes⟩
    · exact ⟨letter :: before, after, rfl, closes⟩

/-- Nothing is found before a fence exactly where no fence closes. -/
theorem untilFence_eq_none_iff : untilFence letters = none ↔ ¬HoldsClosing letters := by
  induction letters with
  | nil =>
      simp [untilFence, not_holdsClosing_nil]
  | cons letter rest inductionHypothesis =>
      rw [holdsClosing_cons_iff, closes_cons_iff, not_or, ← inductionHypothesis, untilFence]
      split
      · next closes => simp [closes]
      · next unclosed => simp [unclosed]

theorem untilFence_of_closes (closes : Closes closing) : untilFence closing = some [] := by
  obtain ⟨blanks, rest, rfl, blank⟩ := closes
  have here := closes_cons_iff.mp ⟨blanks, rest, rfl, blank⟩
  rw [untilFence, if_pos here]

/-- With a brace still to come, a fence that closes behind a text closes in it. -/
theorem not_closes_append
    {letter : Letter} {rest : List Letter} (brace : .char '\x7d' ∈ rest)
    (within : ¬Closes (letter :: rest)) (closing : List Letter) :
    ¬Closes (letter :: (rest ++ closing)) := by
  rw [closes_cons_iff, Bool.and_eq_true, decide_eq_true_eq, not_and] at within ⊢
  intro lineBreak fenced
  -- The blanks stop at the brace at the latest, so a fence would have to begin before it.
  have notBlank : .char '\x7d' ∉ rest.takeWhile isBlank := by
    intro member
    have blank := List.mem_takeWhile_imp member
    exact absurd blank (by decide)
  have visible : .char '\x7d' ∈ rest.dropWhile isBlank := by
    rw [← List.takeWhile_append_dropWhile (p := isBlank) (l := rest)] at brace
    exact (List.mem_append.mp brace).resolve_left notBlank
  have shorter :
      (rest ++ closing).dropWhile isBlank = rest.dropWhile isBlank ++ closing := by
    have nonempty : (rest.dropWhile isBlank).isEmpty = false := by
      rw [List.isEmpty_eq_false_iff]
      exact List.ne_nil_of_mem visible
    rw [List.dropWhile_append, nonempty]
    rfl
  rw [shorter, List.isPrefixOf_iff_prefix] at fenced
  rcases List.prefix_or_prefix_of_prefix fenced (List.prefix_append _ closing) with
    inside | outside
  · exact within lineBreak (List.isPrefixOf_iff_prefix.mpr inside)
  · exact absurd (outside.subset visible) (by decide)

/-- What stands before a closing fence is found, if no fence closes in it. -/
theorem untilFence_append
    (ends : body.getLast? = some (.char '\x7d')) (uncut : ¬HoldsClosing body)
    (closes : Closes closing) :
    untilFence (body ++ closing) = some body := by
  induction body with
  | nil =>
      simp at ends
  | cons letter rest inductionHypothesis =>
      rw [holdsClosing_cons_iff, not_or] at uncut
      have goesOn : ¬Closes (letter :: (rest ++ closing)) ∧
          untilFence (rest ++ closing) = some rest := by
        cases rest with
        | nil =>
            rw [List.getLast?_singleton, Option.some.injEq] at ends
            rw [closes_cons_iff, ends]
            exact ⟨by simp, untilFence_of_closes closes⟩
        | cons next more =>
            rw [List.getLast?_cons_cons] at ends
            have brace := List.mem_of_getLast? ends
            exact ⟨not_closes_append brace uncut.1 closing, inductionHypothesis ends uncut.2⟩
      have here := goesOn.1
      rw [closes_cons_iff] at here
      rw [List.cons_append, untilFence, if_neg here, goesOn.2]
      rfl

/-! ## Fenced texts -/

/-- The text behind an opening fence goes on to a closing one: behind blanks and a
line break. -/
def GoesOnToClosing (letters : List Letter) : Prop :=
  ∃ gap more, letters = gap ++ .char '\n' :: more ∧
    (∀ blank ∈ gap, isBlank blank = true) ∧ HoldsClosing more

/-- An opening fence, perhaps with a label, that goes on to a closing one. -/
def Opens (letters : List Letter) : Prop :=
  ∃ label rest, letters = fence ++ (label ++ rest) ∧ (label = [] ∨ label = fenceLabel) ∧
    GoesOnToClosing rest

/-- The text holds a fenced text somewhere. -/
def HoldsFenced (letters : List Letter) : Prop :=
  ∃ before after, letters = before ++ after ∧ Opens after

theorem fencedBody?_eq_none_iff :
    fencedBody? letters = none ↔ ¬GoesOnToClosing letters := by
  unfold fencedBody?
  simp only [List.findSome?_eq_none_iff, List.mem_filter, List.mem_reverse, List.mem_range,
    untilFence_eq_none_iff, beq_iff_eq]
  constructor
  · rintro never ⟨gap, more, rfl, blank, closes⟩
    have longer : (gap ++ .char '\n' :: more).takeWhile isBlank =
        gap ++ .char '\n' :: more.takeWhile isBlank := by
      rw [List.takeWhile_append_of_pos blank]
      rfl
    have noClosing := never gap.length (by rw [longer]; simp)
    simp only [List.drop_length_add_append, List.drop_succ_cons, List.drop_zero] at noClosing
    exact noClosing closes
  · rintro never start ⟨small, lineBreak⟩ closes
    have whole := List.takeWhile_append_dropWhile (p := isBlank) (l := letters)
    have blank : ∀ letter ∈ letters.takeWhile isBlank,
        isBlank letter = true := fun _ => List.mem_takeWhile_imp
    generalize letters.takeWhile isBlank = gap at small lineBreak whole blank
    generalize letters.dropWhile isBlank = rest at whole
    subst whole
    obtain ⟨_, found⟩ := List.getElem?_eq_some_iff.mp lineBreak
    have split : gap.take start ++ .char '\n' :: gap.drop (start + 1) = gap := by
      rw [← found, ← List.drop_eq_getElem_cons small, List.take_append_drop]
    rw [List.drop_append_of_le_length small] at closes
    refine never ⟨gap.take start, _, ?_, ?_, closes⟩
    · rw [← List.cons_append, ← List.append_assoc, split]
    · intro letter member
      exact blank letter (List.mem_of_mem_take member)

theorem goesOnToClosing_dropLabel_iff :
    GoesOnToClosing (dropLabel letters) ↔
      ∃ label rest, letters = label ++ rest ∧ (label = [] ∨ label = fenceLabel) ∧
        GoesOnToClosing rest := by
  unfold dropLabel
  split
  · next labelled =>
      obtain ⟨rest, rfl⟩ := List.isPrefixOf_iff_prefix.mp labelled
      rw [List.drop_left]
      constructor
      · intro goesOn
        exact ⟨fenceLabel, rest, rfl, Or.inr rfl, goesOn⟩
      · rintro ⟨label, other, shape, rfl | rfl, goesOn⟩
        · -- Without its label the text would have to go on with a blank, and it does not.
          obtain ⟨gap, more, split, blank, _⟩ := goesOn
          rw [List.nil_append, split] at shape
          cases gap with
          | nil => simp [fenceLabel, Json.plainLetters] at shape
          | cons first gap =>
              obtain ⟨same, _⟩ := List.cons.inj shape
              have firstBlank := blank first List.mem_cons_self
              rw [← same] at firstBlank
              exact absurd firstBlank (by decide)
        · rwa [List.append_cancel_left shape]
  · next unlabelled =>
      constructor
      · intro goesOn
        exact ⟨[], letters, rfl, Or.inl rfl, goesOn⟩
      · rintro ⟨label, rest, rfl, rfl | rfl, goesOn⟩
        · exact goesOn
        · exact absurd (List.isPrefixOf_iff_prefix.mpr (List.prefix_append _ _)) unlabelled

/-- The text that is found where a fence may open. -/
def opened? (letters : List Letter) : Option (List Letter) :=
  if fence.isPrefixOf letters then fencedBody? (dropLabel (letters.drop fence.length))
  else none

theorem opened?_eq_none_iff : opened? letters = none ↔ ¬Opens letters := by
  unfold opened?
  split
  · next fenced =>
      obtain ⟨rest, rfl⟩ := List.isPrefixOf_iff_prefix.mp fenced
      rw [List.drop_left, fencedBody?_eq_none_iff, goesOnToClosing_dropLabel_iff, not_iff_not]
      constructor
      · rintro ⟨label, more, rfl, known, goesOn⟩
        exact ⟨label, more, rfl, known, goesOn⟩
      · rintro ⟨label, more, shape, known, goesOn⟩
        exact ⟨label, more, List.append_cancel_left shape, known, goesOn⟩
  · next unfenced =>
      rw [eq_self, true_iff]
      rintro ⟨label, rest, rfl, _⟩
      exact unfenced (List.isPrefixOf_iff_prefix.mpr (List.prefix_append _ _))

theorem fenced?_cons (letter : Letter) (rest : List Letter) :
    fenced? (letter :: rest) = (opened? (letter :: rest)).or (fenced? rest) := by
  rw [fenced?, opened?]
  split
  · next found => rw [found]; rfl
  · next missed => rw [missed]; rfl

/-- Nothing fenced is found exactly where nothing fenced stands. -/
theorem fenced?_eq_none_iff : fenced? letters = none ↔ ¬HoldsFenced letters := by
  induction letters with
  | nil =>
      have nothing : ¬HoldsFenced [] := by
        rintro ⟨before, after, shape, label, rest, rfl, _⟩
        simp [fence] at shape
      simp [fenced?, nothing]
  | cons letter rest inductionHypothesis =>
      rw [fenced?_cons, Option.or_eq_none_iff, opened?_eq_none_iff, inductionHypothesis, ← not_or,
        not_iff_not]
      constructor
      · rintro (opens | ⟨before, after, rfl, opens⟩)
        · exact ⟨[], _, rfl, opens⟩
        · exact ⟨letter :: before, after, rfl, opens⟩
      · rintro ⟨before, after, shape, opens⟩
        cases before with
        | nil =>
            rw [List.nil_append] at shape
            exact Or.inl (shape ▸ opens)
        | cons first before =>
            exact Or.inr ⟨before, after, (List.cons.inj shape).2, opens⟩

theorem holdsClosing_of_holdsFenced (fenced : HoldsFenced letters) :
    HoldsClosing letters := by
  obtain ⟨before, _, rfl, label, _, rfl, _, gap, _, rfl, _, inner, closing, rfl, closes⟩ :=
    fenced
  exact ⟨before ++ (fence ++ (label ++ (gap ++ .char '\n' :: inner))), closing, by simp, closes⟩

/-- Text without the mark of a fence opens none. -/
theorem fenced?_append (unmarked : .char '\x60' ∉ before) :
    fenced? (before ++ after) = fenced? after := by
  induction before with
  | nil =>
      rfl
  | cons letter rest inductionHypothesis =>
      have other : letter ≠ .char '\x60' := fun same => unmarked (by simp [same])
      have closed : opened? (letter :: (rest ++ after)) = none := by
        simp [opened?, fence, Ne.symm other]
      have later := inductionHypothesis fun member =>
        unmarked (List.mem_cons_of_mem letter member)
      rw [List.cons_append, fenced?_cons, closed, Option.none_or, later]

/-! ## Objects in replies -/

/-- The text stands between braces, and no fence closes in it. -/
structure IsEnclosed (document : List Letter) : Prop where
  begins : document.head? = some (.char '\x7b')
  ends : document.getLast? = some (.char '\x7d')
  uncut : ¬HoldsClosing document

theorem IsEnclosed.fencedBody?_eq
    (enclosed : IsEnclosed document) (closes : Closes closing) :
    fencedBody? (.char '\n' :: (document ++ closing)) = some document := by
  have found := untilFence_append enclosed.ends enclosed.uncut closes
  have gap : (.char '\n' :: (document ++ closing)).takeWhile isBlank = [.char '\n'] := by
    obtain ⟨rest, rfl⟩ := List.head?_eq_some_iff.mp enclosed.begins
    rfl
  unfold fencedBody?
  rw [gap]
  simpa using found

theorem IsEnclosed.fenced?_eq
    (enclosed : IsEnclosed document) (closes : Closes closing) (unmarked : .char '\x60' ∉ before)
    {label : List Letter} (known : label = [] ∨ label = fenceLabel) :
    fenced? (before ++ (fence ++ (label ++ .char '\n' :: (document ++ closing)))) =
      some document := by
  have opened :
      opened? (fence ++ (label ++ .char '\n' :: (document ++ closing))) = some document := by
    have fenced :
        fence.isPrefixOf (fence ++ (label ++ .char '\n' :: (document ++ closing))) = true :=
      List.isPrefixOf_iff_prefix.mpr (List.prefix_append _ _)
    have unlabelled :
        dropLabel (label ++ .char '\n' :: (document ++ closing)) =
          .char '\n' :: (document ++ closing) := by
      rcases known with rfl | rfl
      · rfl
      · rfl
    rw [opened?, if_pos fenced, List.drop_left, unlabelled]
    exact enclosed.fencedBody?_eq closes
  have first : fenced? (fence ++ (label ++ .char '\n' :: (document ++ closing))) =
      (opened? (fence ++ (label ++ .char '\n' :: (document ++ closing)))).or (fenced? _) :=
    fenced?_cons _ _
  rw [fenced?_append unmarked, first, opened, Option.some_or]

theorem IsEnclosed.fenced?_eq_none (enclosed : IsEnclosed document) :
    fenced? document = none := by
  rw [fenced?_eq_none_iff]
  exact fun fenced => enclosed.uncut (holdsClosing_of_holdsFenced fenced)

/-- The braces of an object are the first and the last, if there are none around it. -/
theorem IsEnclosed.braced?_eq
    (enclosed : IsEnclosed document) (noneBefore : .char '\x7b' ∉ before)
    (noneAfter : .char '\x7d' ∉ after) :
    braced? (before ++ (document ++ after)) = some document := by
  have started :
      (before ++ (document ++ after)).dropWhile (· != .char '\x7b') = document ++ after := by
    have passed : ∀ letter ∈ before, (letter != .char '\x7b') = true := by
      intro letter member
      exact bne_iff_ne.mpr fun same => noneBefore (same ▸ member)
    obtain ⟨rest, rfl⟩ := List.head?_eq_some_iff.mp enclosed.begins
    rw [List.dropWhile_append_of_pos passed]
    rfl
  have ended : Text.dropEndWhile (· != .char '\x7d') (document ++ after) = document := by
    have passed : ∀ letter ∈ after.reverse, (letter != .char '\x7d') = true := by
      intro letter member
      exact bne_iff_ne.mpr fun same => noneAfter (same ▸ List.mem_reverse.mp member)
    obtain ⟨front, rfl⟩ := List.getLast?_eq_some_iff.mp enclosed.ends
    rw [Text.dropEndWhile, List.reverse_append, List.dropWhile_append_of_pos passed,
      List.reverse_append]
    simp
  have nonempty : document.isEmpty = false := by
    obtain ⟨rest, rfl⟩ := List.head?_eq_some_iff.mp enclosed.begins
    rfl
  unfold braced?
  dsimp only
  rw [started, ended, nonempty]
  rfl

/-- The object between fences, with a label and with text before and behind them. -/
def fencedReply (label : String) (before document after : RawText) : RawText :=
  before ++ RawText.ofLetters fence ++ label ++ "\n" ++ document ++ "\n" ++
    RawText.ofLetters fence ++ after

theorem candidate_fencedReply
    {document : RawText} (enclosed : IsEnclosed document.letters)
    {label : String} (known : label ∈ ["", "json"]) {before : RawText}
    (unmarked : .char '\x60' ∉ before.letters) (after : RawText) :
    candidate (fencedReply label before document after) = document := by
  have closes : Closes (.char '\n' :: ([] ++ (fence ++ after.letters))) :=
    ⟨[], after.letters, rfl, by simp⟩
  have knownLabel :
      (label : RawText).letters = [] ∨ (label : RawText).letters = fenceLabel := by
    simp only [List.mem_cons, List.not_mem_nil, or_false] at known
    rcases known with rfl | rfl
    · exact Or.inl rfl
    · exact Or.inr rfl
  have shape :
      (fencedReply label before document after).letters =
        before.letters ++ (fence ++ ((label : RawText).letters ++
          .char '\n' :: (document.letters ++ (.char '\n' :: ([] ++ (fence ++ after.letters)))))) := by
    simp [fencedReply]
  unfold candidate
  rw [shape, enclosed.fenced?_eq closes unmarked knownLabel, Option.some_or, Option.getD_some,
    RawText.ofLetters_letters]

theorem candidate_bare
    {before document after : RawText} (enclosed : IsEnclosed document.letters)
    (noneBefore : .char '\x7b' ∉ before.letters) (noneAfter : .char '\x7d' ∉ after.letters)
    (unfenced : ¬HoldsFenced (before ++ document ++ after).letters) :
    candidate (before ++ document ++ after) = document := by
  have shape :
      (before ++ document ++ after).letters =
        before.letters ++ (document.letters ++ after.letters) := by
    simp
  unfold candidate
  rw [fenced?_eq_none_iff.mpr unfenced, shape, enclosed.braced?_eq noneBefore noneAfter,
    Option.none_or, Option.getD_some, RawText.ofLetters_letters]

theorem candidate_document {document : RawText} (enclosed : IsEnclosed document.letters) :
    candidate document = document := by
  have alone := @IsEnclosed.braced?_eq [] document.letters [] enclosed (by simp) (by simp)
  rw [List.append_nil, List.nil_append] at alone
  rw [candidate, enclosed.fenced?_eq_none, alone, Option.none_or, Option.getD_some,
    RawText.ofLetters_letters]

theorem readReply_eq_of_candidate_eq
    {reply other : RawText} (same : candidate reply = candidate other) :
    readReply reply = readReply other := by
  unfold readReply
  rw [same]

/-- An object that stands between braces, and in which no fence closes, is read
as it is.  It is read alike, with the same fields or the same fault, between fences
behind any text without marks of fences, with a label or without, and in any text
that neither opens a brace before it nor closes one behind it and holds nothing
fenced. -/
theorem wrapping_leaves_reply {document : RawText} (enclosed : IsEnclosed document.letters) :
    candidate document = document ∧
      (∀ label ∈ ["", "json"], ∀ before after : RawText, .char '\x60' ∉ before.letters →
        readReply (fencedReply label before document after) = readReply document) ∧
      ∀ before after : RawText, .char '\x7b' ∉ before.letters → .char '\x7d' ∉ after.letters →
        ¬HoldsFenced (before ++ document ++ after).letters →
        readReply (before ++ document ++ after) = readReply document := by
  have alone := candidate_document enclosed
  refine ⟨alone, ?_, ?_⟩
  · intro label known before after unmarked
    apply readReply_eq_of_candidate_eq
    rw [alone, candidate_fencedReply enclosed known unmarked]
  · intro before after noneBefore noneAfter unfenced
    apply readReply_eq_of_candidate_eq
    rw [alone, candidate_bare enclosed noneBefore noneAfter unfenced]

/-- An object with braces and the mark of a fence in a text. -/
def markedObject : RawText := "\x7b\"apiFlow\": \"\x60\x60\x60 \x7d \x7b\"\x7d"

theorem wrapping_leaves_markedObject :
    IsEnclosed markedObject.letters ∧
      readReply (fencedReply "json" "Here \x7d it is:\n" markedObject "\n\x60\x60\x60\n\x7b\x7d") =
        readReply markedObject ∧
      readReply ("Here \x7d it is:\n" ++ markedObject ++ "\n\x60\x60\x60\n\x7b") =
        readReply markedObject ∧
      ((readReply markedObject).toOption.map fun fields => textAt fields "apiFlow") =
        some "\x60\x60\x60 \x7d \x7b" := by
  have enclosed : IsEnclosed markedObject.letters :=
    ⟨by decide, by decide, untilFence_eq_none_iff.mp (by decide +kernel)⟩
  obtain ⟨_, fenced, bare⟩ := wrapping_leaves_reply enclosed
  refine ⟨enclosed, ?_, ?_, by decide +kernel⟩
  · exact fenced "json" (by decide) _ _ (by decide)
  · exact bare _ _ (by decide) (by decide) (fenced?_eq_none_iff.mp (by decide +kernel))

end ModuleAtlas.Enrichment
