import ModuleAtlas.Path

/-!
# Texts of paths

Paths are texts.  Taking a path apart at its slashes and putting components
together again undo each other, as long as no component holds a slash.
-/

namespace ModuleAtlas.Text

/-! ## Pieces between separators -/

/-- A text without separators is one piece. -/
theorem splitList_of_notMem
    {separator : Char} {characters : List Char}
    (absent : separator ∉ characters) :
    splitList separator characters = [characters] := by
  induction characters with
  | nil =>
      rfl
  | cons character rest inductionHypothesis =>
      have different : character ≠ separator := by
        intro equal
        exact absent (by simp [equal])
      have restAbsent : separator ∉ rest := by
        intro member
        exact absent (List.mem_cons_of_mem character member)
      simp [splitList, inductionHypothesis restAbsent, different]

/-- The first separator ends the first piece. -/
theorem splitList_append_cons
    {separator : Char} {piece rest : List Char}
    (absent : separator ∉ piece) :
    splitList separator (piece ++ separator :: rest) =
      piece :: splitList separator rest := by
  induction piece with
  | nil =>
      simp [splitList]
  | cons character piece inductionHypothesis =>
      have different : character ≠ separator := by
        intro equal
        exact absent (by simp [equal])
      have pieceAbsent : separator ∉ piece := by
        intro member
        exact absent (List.mem_cons_of_mem character member)
      simp [splitList, inductionHypothesis pieceAbsent, different]

end ModuleAtlas.Text

namespace ModuleAtlas.Path

/-- A name that can stand between slashes. -/
def IsName (name : String) : Prop :=
  name ≠ "" ∧ '/' ∉ name.toList

@[simp]
theorem ofComponents_nil : ofComponents [] = "" := by
  simp [ofComponents]

@[simp]
theorem ofComponents_singleton (name : String) : ofComponents [name] = name := by
  simp [ofComponents]

theorem ofComponents_cons
    (name : String) {rest : List String} (nonempty : rest ≠ []) :
    ofComponents (name :: rest) = name ++ "/" ++ ofComponents rest :=
  String.intercalate_cons_of_ne_nil nonempty

/-- The pieces of a path are the components that it was made of. -/
theorem pieces_ofComponents
    {names : List String} (nonempty : names ≠ [])
    (slashFree : ∀ name ∈ names, '/' ∉ name.toList) :
    pieces (ofComponents names) = names := by
  induction names with
  | nil =>
      exact absurd rfl nonempty
  | cons name rest inductionHypothesis =>
      have nameFree : '/' ∉ name.toList := slashFree name List.mem_cons_self
      by_cases last : rest = []
      · simp [last, pieces, Text.split, Text.splitList_of_notMem nameFree]
      · have restPieces : pieces (ofComponents rest) = rest := by
          apply inductionHypothesis last
          intro later member
          exact slashFree later (List.mem_cons_of_mem name member)
        rw [ofComponents_cons name last]
        have characters :
            (name ++ "/" ++ ofComponents rest).toList =
              name.toList ++ '/' :: (ofComponents rest).toList := by
          simp
        rw [pieces, Text.split, characters, Text.splitList_append_cons nameFree,
          List.map_cons, String.ofList_toList]
        exact congrArg (name :: ·) restPieces

theorem pieces_of_slashFree {name : String} (slashFree : '/' ∉ name.toList) :
    pieces name = [name] := by
  have single := pieces_ofComponents (List.cons_ne_nil name []) (by simpa using slashFree)
  rwa [ofComponents_singleton] at single

/-- Different lists of names make different paths. -/
theorem ofComponents_injective
    {names others : List String} (nonempty : names ≠ []) (othersNonempty : others ≠ [])
    (slashFree : ∀ name ∈ names, '/' ∉ name.toList)
    (othersFree : ∀ name ∈ others, '/' ∉ name.toList)
    (same : ofComponents names = ofComponents others) :
    names = others := by
  rw [← pieces_ofComponents nonempty slashFree, same,
    pieces_ofComponents othersNonempty othersFree]

end ModuleAtlas.Path
