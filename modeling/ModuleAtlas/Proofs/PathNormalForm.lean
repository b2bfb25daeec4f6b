import Mathlib.Data.List.Induction
import ModuleAtlas.Proofs.PathSteps

/-!
# Normal forms of paths

Normalising a path carries its steps up out as far as they can be.  Following
the pieces of a relative path one by one comes to the same names, unless a step
leads above the place where the way begins; then the normal form begins with a
step up.  So a relative path whose normal form does not climb, and every
absolute one, is left with names alone.
-/

namespace ModuleAtlas

namespace Text

theorem notMem_of_mem_splitList
    {separator : Char} {characters piece : List Char}
    (member : piece ∈ splitList separator characters) : separator ∉ piece := by
  induction characters generalizing piece with
  | nil =>
      rw [splitList, List.mem_singleton] at member
      simp [member]
  | cons character rest inductionHypothesis =>
      rw [splitList] at member
      by_cases same : character = separator
      · rw [if_pos same, List.mem_cons] at member
        rcases member with rfl | later
        · exact List.not_mem_nil
        · exact inductionHypothesis later
      · rw [if_neg same] at member
        cases split : splitList separator rest with
        | nil => exact absurd split (splitList_ne_nil separator rest)
        | cons first others =>
            rw [split] at member inductionHypothesis
            rcases List.mem_cons.mp member with rfl | later
            · have firstFree := inductionHypothesis List.mem_cons_self
              simp [Ne.symm same, firstFree]
            · exact inductionHypothesis (List.mem_cons_of_mem first later)

end Text

namespace Path

/-! ## Pieces and components -/

theorem slashFree_of_mem_pieces
    {path piece : String} (member : piece ∈ pieces path) : '/' ∉ piece.toList := by
  obtain ⟨characters, listed, rfl⟩ := List.mem_map.mp member
  rw [String.toList_ofList]
  exact Text.notMem_of_mem_splitList listed

/-- A path is its pieces, put together again. -/
theorem ofComponents_pieces (path : String) : ofComponents (pieces path) = path := by
  have whole :
      ∀ characters : List Char,
        ofComponents ((Text.splitList '/' characters).map String.ofList) =
          String.ofList characters := by
    intro characters
    induction characters with
    | nil =>
        rfl
    | cons character rest inductionHypothesis =>
        rw [Text.splitList]
        by_cases slash : character = '/'
        · have someRest : (Text.splitList '/' rest).map String.ofList ≠ [] := by
            simpa using Text.splitList_ne_nil '/' rest
          rw [if_pos slash, List.map_cons, ofComponents_cons _ someRest, inductionHypothesis,
            slash, ← String.toList_inj]
          simp
        · rw [if_neg slash]
          cases split : Text.splitList '/' rest with
          | nil => exact absurd split (Text.splitList_ne_nil '/' rest)
          | cons first others =>
              rw [split] at inductionHypothesis
              rw [← String.toList_inj, String.toList_ofList]
              rw [← String.toList_inj, String.toList_ofList] at inductionHypothesis
              by_cases last : others.map String.ofList = []
              · simpa [last] using inductionHypothesis
              · simpa [ofComponents_cons _ last] using inductionHypothesis
  rw [pieces, Text.split, whole, String.ofList_toList]

/-- Whether a piece counts as a component. -/
def isCounted (piece : String) : Bool :=
  piece != "" && piece != "."

theorem components_eq (path : String) : components path = (pieces path).filter isCounted := rfl

theorem mem_components_iff {path name : String} :
    name ∈ components path ↔ name ∈ pieces path ∧ name ≠ "" ∧ name ≠ "." := by
  rw [components_eq, List.mem_filter, isCounted, Bool.and_eq_true, bne_iff_ne, bne_iff_ne]

theorem isName_of_mem_components
    {path name : String} (member : name ∈ components path) : IsName name ∧ name ≠ "." := by
  obtain ⟨listed, nonempty, notHere⟩ := mem_components_iff.mp member
  exact ⟨⟨nonempty, slashFree_of_mem_pieces listed⟩, notHere⟩

/-! ## Following pieces -/

/-- Where pieces lead from a place, one after another.  Empty pieces and those
that stay where they are lead nowhere else, a step up leads back, and above the
start of the way there is nothing. -/
def follow? : List String → List String → Option (List String)
  | place, [] => some place
  | place, piece :: rest =>
      if piece = "" ∨ piece = "." then follow? place rest
      else if piece = ".." then
        if place = [] then none else follow? place.dropLast rest
      else follow? (place ++ [piece]) rest

theorem follow?_filter (place pieces : List String) :
    follow? place (pieces.filter isCounted) = follow? place pieces := by
  induction pieces generalizing place with
  | nil =>
      rfl
  | cons piece rest inductionHypothesis =>
      rw [follow?]
      by_cases skipped : piece = "" ∨ piece = "."
      · have dropped : isCounted piece = false := by
          rcases skipped with rfl | rfl <;> rfl
        rw [List.filter_cons_of_neg (by simp [dropped]), if_pos skipped, inductionHypothesis]
      · have counted : isCounted piece = true := by
          simpa [isCounted, not_or] using skipped
        rw [List.filter_cons_of_pos counted, follow?, if_neg skipped, if_neg skipped]
        simp only [inductionHypothesis]

theorem follow?_append (place first second : List String) :
    follow? place (first ++ second) = (follow? place first).bind (follow? · second) := by
  induction first generalizing place with
  | nil =>
      rfl
  | cons piece rest inductionHypothesis =>
      rw [List.cons_append, follow?, follow?]
      split
      · exact inductionHypothesis place
      · split
        · split
          · rfl
          · exact inductionHypothesis place.dropLast
        · exact inductionHypothesis (place ++ [piece])

theorem follow?_of_isStep
    {names : List String} (place : List String) (steps : ∀ name ∈ names, IsStep name) :
    follow? place names = some (place ++ names) := by
  induction names generalizing place with
  | nil =>
      rw [follow?, List.append_nil]
  | cons name rest inductionHypothesis =>
      have own : IsStep name := steps name List.mem_cons_self
      have onward := inductionHypothesis (place ++ [name]) fun later member =>
        steps later (List.mem_cons_of_mem name member)
      rw [follow?, if_neg (by simp [own.isName.1, own.notHere]), if_neg own.notAbove, onward,
        List.append_assoc, List.singleton_append]

/-- As many steps up as there are names lead back to where these were added. -/
theorem follow?_above (place names : List String) :
    follow? (place ++ names) (names.map fun _ => "..") = some place := by
  induction names using List.reverseRecOn with
  | nil =>
      rw [List.map_nil, follow?, List.append_nil]
  | append_singleton names last inductionHypothesis =>
      have sameSteps :
          ((names ++ [last]).map fun _ => "..") = ".." :: names.map fun _ => ".." := by
        rw [List.map_append, List.map_const', List.map_singleton, ← List.replicate_succ',
          List.replicate_succ]
      rw [sameSteps, follow?, if_neg (by decide), if_pos rfl, if_neg (by simp),
        ← List.append_assoc, List.dropLast_concat, inductionHypothesis]

/-- A joined path leads where its base and then the path lead. -/
theorem follow?_join
    (place : List String) (base : String) {path : String} (relative : isAbsolute path = false) :
    follow? place (pieces (join base path)) = follow? place (pieces base ++ pieces path) := by
  rw [← follow?_filter, ← components_eq, components_join base relative, components_eq,
    components_eq, ← List.filter_append, follow?_filter]

/-! ## Carrying steps out -/

/-- A step up that nothing is left to undo stays, whatever follows. -/
theorem getLast?_step
    {taken : List String} (climbed : taken.getLast? = some "..") (component : String) :
    (step false taken component).getLast? = some ".." := by
  obtain ⟨front, rfl⟩ := List.getLast?_eq_some_iff.mp climbed
  unfold step
  split
  · cases front with
    | nil =>
        simp
    | cons last before =>
        rw [List.cons_append]
        dsimp only
        split
        · exact List.getLast?_eq_some_iff.mpr ⟨component :: last :: before, rfl⟩
        · exact List.getLast?_eq_some_iff.mpr ⟨before, rfl⟩
  · exact List.getLast?_eq_some_iff.mpr ⟨component :: front, rfl⟩

theorem getLast?_foldl_step
    {taken : List String} (climbed : taken.getLast? = some "..") (components : List String) :
    (components.foldl (step false) taken).getLast? = some ".." := by
  induction components generalizing taken with
  | nil =>
      exact climbed
  | cons component rest inductionHypothesis =>
      exact inductionHypothesis (getLast?_step climbed component)

/-- Where pieces can be followed, carrying them out comes to the same names; where
they lead above the start, a step up is left at the bottom. -/
theorem follow?_spec
    {place pieces : List String} (steps : ∀ name ∈ place, IsStep name)
    (slashFree : ∀ piece ∈ pieces, '/' ∉ piece.toList) :
    match follow? place pieces with
    | some reached =>
        (∀ name ∈ reached, IsStep name) ∧
          (pieces.filter isCounted).foldl (step false) place.reverse = reached.reverse
    | none =>
        ((pieces.filter isCounted).foldl (step false) place.reverse).getLast? = some ".." := by
  induction pieces generalizing place with
  | nil =>
      exact ⟨steps, rfl⟩
  | cons piece rest inductionHypothesis =>
      have restFree : ∀ later ∈ rest, '/' ∉ later.toList :=
        fun later member => slashFree later (List.mem_cons_of_mem piece member)
      rw [follow?]
      by_cases skipped : piece = "" ∨ piece = "."
      · have dropped : isCounted piece = false := by
          rcases skipped with rfl | rfl <;> rfl
        rw [if_pos skipped, List.filter_cons_of_neg (by simp [dropped])]
        exact inductionHypothesis steps restFree
      · have counted : isCounted piece = true := by
          simpa [isCounted, not_or] using skipped
        rw [if_neg skipped, List.filter_cons_of_pos counted, List.foldl_cons]
        by_cases above : piece = ".."
        · subst above
          rw [if_pos rfl]
          by_cases start : place = []
          · subst start
            rw [if_pos rfl]
            exact getLast?_foldl_step rfl _
          · obtain ⟨before, last, rfl⟩ : ∃ before last, place = before ++ [last] :=
              ⟨_, _, (List.dropLast_concat_getLast start).symm⟩
            have lastStep : IsStep last := steps last (by simp)
            have undone : step false (before ++ [last]).reverse ".." = before.reverse := by
              simp [step, lastStep.notAbove]
            rw [if_neg start, List.dropLast_concat, undone]
            exact inductionHypothesis
              (fun name member => steps name (List.mem_append_left _ member)) restFree
        · obtain ⟨nonempty, notHere⟩ := not_or.mp skipped
          have own : IsStep piece :=
            ⟨⟨nonempty, slashFree piece List.mem_cons_self⟩, notHere, above⟩
          have longer : ∀ name ∈ place ++ [piece], IsStep name := by
            intro name member
            rcases List.mem_append.mp member with before | last
            · exact steps name before
            · exact List.mem_singleton.mp last ▸ own
          have taken : step false place.reverse piece = (place ++ [piece]).reverse := by
            rw [List.reverse_append]
            exact if_neg above
          rw [if_neg above, taken]
          exact inductionHypothesis longer restFree

theorem collapse_of_follow?
    {path : String} {reached : List String} (leads : follow? [] (pieces path) = some reached) :
    (∀ name ∈ reached, IsStep name) ∧ collapse false (components path) = reached := by
  have spec := @follow?_spec [] (pieces path) (by simp) fun _ => slashFree_of_mem_pieces
  rw [leads] at spec
  obtain ⟨steps, carried⟩ := spec
  refine ⟨steps, ?_⟩
  rw [collapse, components_eq]
  simpa using congrArg List.reverse carried

theorem collapse_of_follow?_eq_none
    {path : String} (lost : follow? [] (pieces path) = none) :
    ∃ rest, collapse false (components path) = ".." :: rest := by
  have spec := @follow?_spec [] (pieces path) (by simp) fun _ => slashFree_of_mem_pieces
  rw [lost] at spec
  obtain ⟨front, carried⟩ := List.getLast?_eq_some_iff.mp spec
  refine ⟨front.reverse, ?_⟩
  rw [collapse, components_eq]
  simpa using congrArg List.reverse carried

theorem notAbove_foldl_step
    {taken : List String} (clean : ".." ∉ taken) (components : List String) :
    ".." ∉ components.foldl (step true) taken := by
  induction components generalizing taken with
  | nil =>
      exact clean
  | cons component rest inductionHypothesis =>
      apply inductionHypothesis
      unfold step
      split
      · cases taken with
        | nil =>
            simp
        | cons last before =>
            obtain ⟨other, others⟩ := not_or.mp (mt List.mem_cons.mpr clean)
            simpa [Ne.symm other] using others
      · next other => simp [clean, Ne.symm other]

theorem mem_of_mem_foldl_step
    {absolute : Bool} {taken components : List String} {name : String}
    (member : name ∈ components.foldl (step absolute) taken) :
    name ∈ taken ∨ name ∈ components := by
  induction components generalizing taken with
  | nil =>
      exact Or.inl member
  | cons component rest inductionHypothesis =>
      have own : name ∈ step absolute taken component → name ∈ taken ∨ name = component := by
        intro kept
        unfold step at kept
        split at kept
        · split at kept
          · split at kept
            · cases kept
            · exact Or.inr (List.mem_singleton.mp kept)
          · split at kept
            · exact (List.mem_cons.mp kept).symm
            · exact Or.inl (List.mem_cons_of_mem _ kept)
        · exact (List.mem_cons.mp kept).symm
      rcases inductionHypothesis member with before | later
      · rcases own before with inTaken | rfl
        · exact Or.inl inTaken
        · exact Or.inr List.mem_cons_self
      · exact Or.inr (List.mem_cons_of_mem component later)

theorem mem_of_mem_collapse
    {absolute : Bool} {components : List String} {name : String}
    (member : name ∈ collapse absolute components) : name ∈ components := by
  have carried := mem_of_mem_foldl_step (List.mem_reverse.mp member)
  exact carried.resolve_left List.not_mem_nil

/-! ## Normal forms -/

theorem rootMark_cases (path : String) :
    rootMark path = "" ∨ rootMark path = "/" ∨ rootMark path = "//" := by
  unfold rootMark
  dsimp only
  split
  · exact Or.inl rfl
  · split
    · exact Or.inr (Or.inr rfl)
    · exact Or.inr (Or.inl rfl)

/-- The mark of a root adds empty pieces. -/
theorem exists_pieces_rootMark_append (path text : String) :
    ∃ empties, (∀ piece ∈ empties, piece = "") ∧
      pieces (rootMark path ++ text) = empties ++ pieces text := by
  have slash : pieces ("/" ++ text) = [""] ++ pieces text := pieces_append_slash "" text
  rcases rootMark_cases path with mark | mark | mark
  · exact ⟨[], by simp, by rw [mark, String.empty_append]; rfl⟩
  · exact ⟨[""], by simp, by rw [mark, slash]⟩
  · have twice : pieces ("//" ++ text) = [""] ++ pieces ("/" ++ text) := by
      have split := pieces_append_slash "" ("/" ++ text)
      rwa [String.empty_append, ← String.append_assoc] at split
    exact ⟨["", ""], by simp, by rw [mark, twice, slash]; rfl⟩

theorem components_rootMark_append (path text : String) :
    components (rootMark path ++ text) = components text := by
  obtain ⟨empties, empty, split⟩ := exists_pieces_rootMark_append path text
  have dropped : empties.filter isCounted = [] := by
    rw [List.filter_eq_nil_iff]
    intro piece member
    rw [empty piece member]
    decide
  rw [components_eq, components_eq, split, List.filter_append, dropped, List.nil_append]

/-- The text of the normal form; empty where the normal form is a point. -/
def normalText (path : String) : String :=
  rootMark path ++ ofComponents (collapse (isAbsolute path) (components path))

theorem components_normalText (path : String) :
    components (normalText path) = collapse (isAbsolute path) (components path) := by
  rw [normalText, components_rootMark_append]
  exact components_ofComponents_of_isName fun name member =>
    isName_of_mem_components (mem_of_mem_collapse member)

theorem normalText_ne_here (path : String) : normalText path ≠ "." := by
  intro here
  have none := components_normalText path
  rw [here, show components "." = [] from rfl] at none
  rw [normalText, ← none, ofComponents_nil, String.append_empty] at here
  rcases rootMark_cases path with mark | mark | mark
  · exact absurd (mark.symm.trans here) (by decide)
  · exact absurd (mark.symm.trans here) (by decide)
  · exact absurd (mark.symm.trans here) (by decide)

theorem normalize_eq (path : String) :
    normalize path = if normalText path = "" then "." else normalText path := by
  simp [normalize, normalText]

theorem components_normalize (path : String) :
    components (normalize path) = collapse (isAbsolute path) (components path) := by
  rw [← components_normalText, normalize_eq]
  split
  · next empty =>
      rw [empty]
      rfl
  · rfl

end Path

end ModuleAtlas
