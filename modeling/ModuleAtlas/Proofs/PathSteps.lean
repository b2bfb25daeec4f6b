import Mathlib.Data.List.TakeWhile
import ModuleAtlas.Proofs.PathText

/-!
# Steps along paths

Joining, taking the directory and normalising, told by components.  A path that
is made of names is taken apart into these names, joining one path to another
lines their components up, and where carrying steps out leaves names alone these
make the normal form.
-/

namespace ModuleAtlas.Text

theorem splitList_ne_nil (separator : Char) (characters : List Char) :
    splitList separator characters ≠ [] := by
  cases characters with
  | nil =>
      simp [splitList]
  | cons character rest =>
      rw [splitList]
      split
      · simp
      · split
        · simp
        · simp

theorem splitList_append_separator
    (separator : Char) (left right : List Char) :
    splitList separator (left ++ separator :: right) =
      splitList separator left ++ splitList separator right := by
  induction left with
  | nil =>
      simp [splitList]
  | cons character rest inductionHypothesis =>
      rw [List.cons_append, splitList, splitList, inductionHypothesis]
      by_cases same : character = separator
      · simp [same]
      · cases pieces : splitList separator rest with
        | nil => exact absurd pieces (splitList_ne_nil separator rest)
        | cons piece others => simp [same]

theorem replaceChar_of_notMem
    {old new : Char} {text : String} (absent : old ∉ text.toList) :
    replaceChar old new text = text := by
  have kept :
      ∀ character ∈ text.toList, (if character = old then new else character) = id character := by
    intro character member
    have other : character ≠ old := by
      rintro rfl
      exact absent member
    exact if_neg other
  rw [replaceChar, List.map_congr_left kept, List.map_id, String.ofList_toList]

theorem beginsWith_iff {text part : String} :
    beginsWith text part = true ↔ ∃ rest, text.toList = part.toList ++ rest := by
  rw [beginsWith, List.isPrefixOf_iff_prefix]
  constructor
  · rintro ⟨rest, shape⟩
    exact ⟨rest, shape.symm⟩
  · rintro ⟨rest, shape⟩
    exact ⟨rest, shape.symm⟩

theorem endsWith_iff {text part : String} :
    endsWith text part = true ↔ part.toList <:+ text.toList := by
  rw [endsWith, List.isSuffixOf_iff_suffix]

theorem exists_of_endsWith
    {text part : String} (ends : endsWith text part = true) :
    ∃ front, text = front ++ part := by
  obtain ⟨front, shape⟩ := endsWith_iff.mp ends
  refine ⟨String.ofList front, ?_⟩
  rw [← String.toList_inj, String.toList_append, String.toList_ofList, shape]

end ModuleAtlas.Text

namespace ModuleAtlas.Path

/-! ## Pieces -/

theorem pieces_append_slash (left right : String) :
    pieces (left ++ "/" ++ right) = pieces left ++ pieces right := by
  have characters :
      (left ++ "/" ++ right).toList = left.toList ++ '/' :: right.toList := by
    simp
  rw [pieces, pieces, pieces, Text.split, characters, Text.splitList_append_separator,
    List.map_append]
  rfl

theorem pieces_ne_nil (path : String) : pieces path ≠ [] := by
  rw [pieces, Text.split]
  simpa using Text.splitList_ne_nil '/' path.toList

@[simp]
theorem pieces_empty : pieces "" = [""] := rfl

/-- What stands before the first slash makes the first pieces. -/
theorem pieces_of_beginsWith
    {path part : String} (begins : Text.beginsWith path (part ++ "/") = true) :
    ∃ rest, pieces path = pieces part ++ rest := by
  obtain ⟨rest, shape⟩ := Text.beginsWith_iff.mp begins
  have whole : path = part ++ "/" ++ String.ofList rest := by
    rw [← String.toList_inj, shape]
    simp
  exact ⟨pieces (String.ofList rest), by rw [whole, pieces_append_slash]⟩

theorem ofComponents_append
    {before after : List String} (someBefore : before ≠ []) (someAfter : after ≠ []) :
    ofComponents (before ++ after) = ofComponents before ++ "/" ++ ofComponents after := by
  induction before with
  | nil =>
      exact absurd rfl someBefore
  | cons name rest inductionHypothesis =>
      have restAfter : rest ++ after ≠ [] := by simp [someAfter]
      rw [List.cons_append, ofComponents_cons name restAfter]
      by_cases last : rest = []
      · simp [last]
      · rw [inductionHypothesis last, ofComponents_cons name last]
        simp only [String.append_assoc]

theorem mem_ofComponents
    {names : List String} {character : Char} (other : character ≠ '/') :
    character ∈ (ofComponents names).toList ↔ ∃ name ∈ names, character ∈ name.toList := by
  induction names with
  | nil =>
      simp
  | cons name rest inductionHypothesis =>
      by_cases last : rest = []
      · simp [last]
      · rw [ofComponents_cons name last, String.toList_append, String.toList_append,
          List.mem_append, List.mem_append, inductionHypothesis]
        simp [other]

/-- A name is no piece that is dropped or carried out. -/
structure IsStep (name : String) : Prop where
  isName : IsName name
  notHere : name ≠ "."
  notAbove : name ≠ ".."

theorem slashFree_of_isStep
    {names : List String} (steps : ∀ name ∈ names, IsStep name) :
    ∀ name ∈ names, '/' ∉ name.toList :=
  fun name member => (steps name member).isName.2

theorem ofComponents_ne_empty_of_isName
    {names : List String} (someName : names ≠ []) (named : ∀ name ∈ names, IsName name) :
    ofComponents names ≠ "" := by
  intro empty
  have split := pieces_ofComponents someName fun name member => (named name member).2
  rw [empty, pieces_empty] at split
  exact (named "" (by simp [← split])).1 rfl

theorem ofComponents_ne_empty
    {names : List String} (someName : names ≠ []) (steps : ∀ name ∈ names, IsStep name) :
    ofComponents names ≠ "" :=
  ofComponents_ne_empty_of_isName someName fun name member => (steps name member).isName

/-- Components that are put together are found again, steps up among them. -/
theorem components_ofComponents_of_isName
    {names : List String} (kept : ∀ name ∈ names, IsName name ∧ name ≠ ".") :
    components (ofComponents names) = names := by
  by_cases none : names = []
  · subst none
    rfl
  · have slashFree : ∀ name ∈ names, '/' ∉ name.toList :=
      fun name member => (kept name member).1.2
    rw [components, pieces_ofComponents none slashFree, List.filter_eq_self]
    intro name member
    simp [(kept name member).1.1, (kept name member).2]

theorem components_ofComponents
    {names : List String} (steps : ∀ name ∈ names, IsStep name) :
    components (ofComponents names) = names :=
  components_ofComponents_of_isName fun name member =>
    ⟨(steps name member).isName, (steps name member).notHere⟩

theorem isAbsolute_ofComponents
    {names : List String} (steps : ∀ name ∈ names, IsStep name) :
    isAbsolute (ofComponents names) = false := by
  rw [← Bool.not_eq_true, isAbsolute]
  intro begins
  by_cases none : names = []
  · subst none
    exact absurd begins (by decide)
  · obtain ⟨rest, split⟩ := @pieces_of_beginsWith _ "" begins
    rw [pieces_ofComponents none (slashFree_of_isStep steps), pieces_empty] at split
    exact (steps "" (by simp [split])).isName.1 rfl

/-! ## Joining -/

/-- A slash at the end of the base counts as none. -/
theorem pieces_join
    (base : String) {path : String} (relative : isAbsolute path = false) :
    ∃ front, (pieces base = front ∨ pieces base = front ++ [""]) ∧
      pieces (join base path) = front ++ pieces path := by
  rw [join, relative, if_neg Bool.false_ne_true]
  by_cases empty : base = ""
  · subst empty
    exact ⟨[], Or.inr rfl, by simp⟩
  · by_cases closed : Text.endsWith base "/" = true
    · obtain ⟨front, shape⟩ := Text.exists_of_endsWith closed
      refine ⟨pieces front, Or.inr ?_, ?_⟩
      · have split := pieces_append_slash front ""
        rwa [String.append_empty, pieces_empty, ← shape] at split
      · rw [closed, Bool.or_true, if_pos rfl, shape, pieces_append_slash]
    · refine ⟨pieces base, Or.inl rfl, ?_⟩
      have plain : (base == "" || Text.endsWith base "/") = false := by
        simp [empty, closed]
      rw [plain, if_neg Bool.false_ne_true, pieces_append_slash]

theorem components_join
    (base : String) {path : String} (relative : isAbsolute path = false) :
    components (join base path) = components base ++ components path := by
  obtain ⟨front, closed | slashed, joined⟩ := pieces_join base relative
  · rw [components, joined, List.filter_append, components, components, closed]
  · rw [components, joined, List.filter_append, components, components, slashed,
      List.filter_append]
    simp

/-- Whether a joined path starts from the root of all directories is for its base
to say. -/
theorem isAbsolute_join_eq
    (base : String) {path : String} (relative : isAbsolute path = false) :
    isAbsolute (join base path) = isAbsolute base := by
  rw [join, relative, if_neg Bool.false_ne_true]
  by_cases empty : base = ""
  · subst empty
    simpa [show isAbsolute "" = false from rfl] using relative
  · obtain ⟨first, rest, characters⟩ : ∃ first rest, base.toList = first :: rest := by
      cases shape : base.toList with
      | nil => exact absurd (String.toList_eq_nil_iff.mp shape) empty
      | cons first rest => exact ⟨first, rest, rfl⟩
    split
    · rw [isAbsolute, isAbsolute, Text.beginsWith, Text.beginsWith, String.toList_append,
        characters]
      rfl
    · rw [isAbsolute, isAbsolute, Text.beginsWith, Text.beginsWith, String.toList_append,
        String.toList_append, characters]
      rfl

theorem isAbsolute_join
    {base path : String} (baseRelative : isAbsolute base = false)
    (relative : isAbsolute path = false) :
    isAbsolute (join base path) = false :=
  (isAbsolute_join_eq base relative).trans baseRelative

theorem mem_of_mem_join
    {base path : String} {character : Char} (other : character ≠ '/')
    (member : character ∈ (join base path).toList) :
    character ∈ base.toList ∨ character ∈ path.toList := by
  rw [join] at member
  split at member
  · exact Or.inr member
  · split at member
    · simpa using member
    · simpa [other] using member

/-! ## The directory and the extension -/

theorem exists_last_of_isStep
    {names : List String} (someName : names ≠ []) (steps : ∀ name ∈ names, IsStep name) :
    ∃ front last, (ofComponents names).toList = front ++ [last] ∧ last ≠ '/' := by
  have nonempty : (ofComponents names).toList ≠ [] := by
    intro empty
    exact ofComponents_ne_empty someName steps (String.toList_eq_nil_iff.mp empty)
  obtain ⟨front, last, shape⟩ : ∃ front last, (ofComponents names).toList = front ++ [last] :=
    ⟨_, _, (List.dropLast_concat_getLast nonempty).symm⟩
  refine ⟨front, last, shape, ?_⟩
  rintro rfl
  have closed : ofComponents names = String.ofList front ++ "/" ++ "" := by
    rw [← String.toList_inj, shape]
    simp
  -- A slash at the end would leave an empty piece.
  have split := pieces_append_slash (String.ofList front) ""
  rw [← closed, pieces_ofComponents someName (slashFree_of_isStep steps), pieces_empty] at split
  exact (steps "" (by simp [split])).isName.1 rfl

theorem dropWhile_name
    {name : String} (slashFree : '/' ∉ name.toList) (rest : List Char) :
    (name.toList.reverse ++ rest).dropWhile (· != '/') = rest.dropWhile (· != '/') := by
  apply List.dropWhile_append_of_pos
  intro character member
  rw [bne_iff_ne]
  rintro rfl
  exact slashFree (List.mem_reverse.mp member)

theorem directory_ofComponents
    {above : List String} {name : String}
    (steps : ∀ other ∈ above ++ [name], IsStep other) :
    directory (ofComponents (above ++ [name])) = ofComponents above := by
  have nameFree : '/' ∉ name.toList := (steps name (by simp)).isName.2
  by_cases none : above = []
  · subst none
    have dropped := dropWhile_name nameFree []
    rw [List.append_nil, List.dropWhile_nil] at dropped
    rw [List.nil_append, ofComponents_singleton, directory, dropped]
    rfl
  · have aboveSteps : ∀ other ∈ above, IsStep other :=
      fun other member => steps other (List.mem_append_left _ member)
    obtain ⟨front, last, shape, notSlash⟩ := exists_last_of_isStep none aboveSteps
    have head :
        ((ofComponents (above ++ [name])).toList.reverse.dropWhile (· != '/')).reverse =
          front ++ [last] ++ ['/'] := by
      rw [ofComponents_append none (List.cons_ne_nil _ _), ofComponents_singleton,
        String.toList_append, String.toList_append, shape, List.reverse_append,
        dropWhile_name nameFree]
      simp
    have bare :
        Text.dropEndWhile (· == '/') (front ++ [last] ++ ['/']) = front ++ [last] := by
      simp [Text.dropEndWhile, notSlash]
    have someText : (front ++ [last]).isEmpty = false := by
      simp
    rw [directory, head, bare, someText, if_neg Bool.false_ne_true, ← shape,
      String.ofList_toList]

theorem extension_ofComponents
    {above : List String} {name : String}
    (steps : ∀ other ∈ above ++ [name], IsStep other) :
    extension (ofComponents (above ++ [name])) = extension name := by
  have own : pieces name = [name] := pieces_of_slashFree (steps name (by simp)).isName.2
  have whole := pieces_ofComponents (by simp) (slashFree_of_isStep steps)
  rw [extension, extension, fileName, fileName, whole, own]
  simp

/-! ## Carrying steps out -/

theorem foldl_step_names
    {absolute : Bool} {taken names : List String} (steps : ∀ name ∈ names, IsStep name) :
    names.foldl (step absolute) taken = names.reverse ++ taken := by
  induction names generalizing taken with
  | nil =>
      rfl
  | cons name rest inductionHypothesis =>
      have own : step absolute taken name = name :: taken :=
        if_neg (steps name List.mem_cons_self).notAbove
      have restSteps : ∀ later ∈ rest, IsStep later :=
        fun later member => steps later (List.mem_cons_of_mem name member)
      rw [List.foldl_cons, own, inductionHypothesis restSteps]
      simp

theorem rootMark_of_relative
    {path : String} (relative : isAbsolute path = false) : rootMark path = "" := by
  have noSlash : (path.toList.takeWhile (· == '/')).length = 0 := by
    rw [List.length_eq_zero_iff]
    cases characters : path.toList with
    | nil =>
        rfl
    | cons first rest =>
        have notSlash : first ≠ '/' := by
          rintro rfl
          rw [← Bool.not_eq_true, isAbsolute, Text.beginsWith_iff] at relative
          exact relative ⟨rest, characters⟩
        simp [notSlash]
  rw [rootMark, noSlash]
  rfl

theorem normalize_of_components
    {path : String} {names : List String} (relative : isAbsolute path = false)
    (kept : collapse false (components path) = names)
    (someName : names ≠ []) (steps : ∀ name ∈ names, IsStep name) :
    normalize path = ofComponents names := by
  have nonempty : (ofComponents names == "") = false := by
    simpa using ofComponents_ne_empty someName steps
  rw [normalize, relative, kept, rootMark_of_relative relative, String.empty_append, nonempty,
    if_neg Bool.false_ne_true]

end ModuleAtlas.Path
