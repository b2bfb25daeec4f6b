import ModuleAtlas.Proofs.GraphConstruction
import ModuleAtlas.Proofs.PathNormalForm
import ModuleAtlas.Script.Parse

/-!
# Imports that spell their files out

An import can spell the way to a file out: the steps up from the directory of
the importer to one that both have in common, and from there the names down to
the file, its extension included.  Such an import means the very path of the
file.  Whether it is resolved to it hangs on the extension, which has to be one
of those known as it is written.
-/

namespace ModuleAtlas

namespace Text

/-- Only the dotted capital makes a text longer. -/
theorem length_lowerFrom (before characters : List Char) :
    (lowerFrom before characters).length = characters.length + characters.count 'İ' := by
  induction characters generalizing before with
  | nil =>
      rfl
  | cons character rest inductionHypothesis =>
      have tail := inductionHypothesis (character :: before)
      rw [lowerFrom]
      by_cases dotted : character = 'İ'
      · rw [if_pos dotted, dotted, List.count_cons_self, List.length_cons, List.length_cons,
          ← dotted, tail, List.length_cons, dotted]
        omega
      · rw [if_neg dotted, List.count_cons_of_ne dotted, List.length_cons]
        split
        · rw [List.length_cons, tail]
          omega
        · rw [List.length_cons, tail]
          omega

theorem length_lower (text : String) :
    (lower text).length = text.length + text.toList.count 'İ' := by
  rw [lower, String.length_ofList, length_lowerFrom, String.length_toList]

end Text

theorem nodeId_append_ne (path : String) {behind : String} (longer : behind ≠ "") :
    nodeId (path ++ behind) ≠ nodeId path := by
  intro same
  have lengths := congrArg String.length same
  have split :
      (Path.slashed (path ++ behind)).toList =
        (Path.slashed path).toList ++ (Path.slashed behind).toList := by
    simp [Path.slashed, Text.replaceChar]
  have nonempty : (Path.slashed behind).toList ≠ [] := by
    simpa [Path.slashed, Text.replaceChar] using longer
  have positive : 0 < (Path.slashed behind).toList.length := List.length_pos_iff.mpr nonempty
  rw [nodeId, nodeId, Text.length_lower, Text.length_lower, ← String.length_toList,
    ← String.length_toList, split, List.length_append, List.count_append] at lengths
  omega

namespace Resolution

variable {ε : Type}

/-! ## Candidates -/

/-- The candidates for a path, when the path of the root itself is empty. -/
theorem candidates_cases
    {path base candidate : String} (own : base = if path = "." then "" else path)
    (member : candidate ∈ candidates path) :
    (candidate = base ∧ Path.extension base ∈ extensions) ∨
      (∃ extension ∈ extensions, candidate = base ++ extension) ∨
      ∃ extension ∈ extensions, candidate = Path.join base ("index" ++ extension) := by
  unfold candidates at member
  simp only [beq_iff_eq, ← own] at member
  have ofIndex :
      candidate ∈ (extensions.map fun extension => Path.join base ("index" ++ extension)) →
        ∃ extension ∈ extensions, candidate = Path.join base ("index" ++ extension) := by
    intro index
    obtain ⟨extension, known, rfl⟩ := List.mem_map.mp index
    exact ⟨extension, known, rfl⟩
  split at member
  · exact Or.inr (Or.inr (ofIndex member))
  · rw [List.mem_append, List.mem_append] at member
    rcases member with (itself | extended) | index
    · split at itself
      · next known =>
          exact Or.inl ⟨List.mem_singleton.mp itself, List.contains_iff_mem.mp known⟩
      · cases itself
    · obtain ⟨extension, known, rfl⟩ := List.mem_map.mp extended
      exact Or.inr (Or.inl ⟨extension, known, rfl⟩)
    · exact Or.inr (Or.inr (ofIndex index))

/-- A path comes first among its candidates, if its extension is known; all
others are longer. -/
theorem mem_candidates
    {file candidate : String} (notHere : file ≠ ".") (member : candidate ∈ candidates file) :
    (candidate = file ∧ Path.extension file ∈ extensions) ∨
      ∃ behind, behind ≠ "" ∧ candidate = file ++ behind := by
  rcases candidates_cases (if_neg notHere).symm member with
    exactly | ⟨extension, known, rfl⟩ | ⟨extension, _, rfl⟩
  · exact Or.inl exactly
  · refine Or.inr ⟨extension, ?_, rfl⟩
    rintro rfl
    exact absurd known (by decide)
  · have relative : Path.isAbsolute ("index" ++ extension) = false := by
      rw [Path.isAbsolute, Text.beginsWith, String.toList_append]
      rfl
    rw [Path.join, relative, if_neg Bool.false_ne_true]
    split
    · exact Or.inr ⟨_, by simp [String.append_eq_empty_iff], rfl⟩
    · exact Or.inr ⟨"/" ++ ("index" ++ extension), by simp [String.append_eq_empty_iff],
        String.append_assoc ..⟩

theorem candidates_of_known
    {file : String} (nonempty : file ≠ "") (notHere : file ≠ ".")
    (known : Path.extension file ∈ extensions) :
    ∃ rest, candidates file = file :: rest := by
  unfold candidates
  simp [notHere, nonempty, known]

theorem firstFile_some
    {isFile : String → Except ε Bool} {candidates : List String} {path : String}
    (found : firstFile isFile candidates = .ok (some path)) :
    path ∈ candidates ∧ isFile path = .ok true := by
  induction candidates with
  | nil =>
      cases found
  | cons candidate rest inductionHypothesis =>
      unfold firstFile at found
      split at found
      · cases found
      · next holds =>
          cases found
          exact ⟨List.mem_cons_self, holds⟩
      · obtain ⟨member, holds⟩ := inductionHypothesis found
        exact ⟨List.mem_cons_of_mem candidate member, holds⟩

/-- A path leads out of the project by a step up. -/
theorem above_mem_of_climbs {path : String} (out : climbs path = true) :
    ".." ∈ Path.pieces path := by
  rw [climbs, Bool.or_eq_true, beq_iff_eq] at out
  rcases out with rfl | begins
  · decide
  · obtain ⟨rest, split⟩ := @Path.pieces_of_beginsWith path ".." begins
    rw [split]
    exact List.mem_append_left _ (by decide)

/-! ## Paths of a project -/

/-- A path of a project, made of names and without backslashes. -/
structure IsPlain (path : String) : Prop where
  steps : ∀ name ∈ Path.pieces path, Path.IsStep name
  whole : Path.ofComponents (Path.pieces path) = path
  bare : '\\' ∉ path.toList

namespace IsPlain

variable {path : String}

theorem of_names
    {names : List String} (someName : names ≠ []) (steps : ∀ name ∈ names, Path.IsStep name)
    (bare : '\\' ∉ (Path.ofComponents names).toList) :
    IsPlain (Path.ofComponents names) := by
  have split := Path.pieces_ofComponents someName (Path.slashFree_of_isStep steps)
  exact ⟨by rwa [split], by rw [split], bare⟩

theorem slashed_eq (plain : IsPlain path) : Path.slashed path = path :=
  Text.replaceChar_of_notMem plain.bare

theorem piece_bare (plain : IsPlain path) :
    ∀ name ∈ Path.pieces path, '\\' ∉ name.toList := by
  intro name member inName
  apply plain.bare
  rw [← plain.whole, Path.mem_ofComponents (by decide)]
  exact ⟨name, member, inName⟩

theorem ne_empty (plain : IsPlain path) : path ≠ "" := by
  rintro rfl
  exact (plain.steps "" (by simp)).isName.1 rfl

theorem ne_here (plain : IsPlain path) : path ≠ "." := by
  rintro rfl
  exact (plain.steps "." (by decide)).notHere rfl

theorem climbs_eq_false (plain : IsPlain path) : climbs path = false := by
  rw [← Bool.not_eq_true]
  intro out
  exact (plain.steps ".." (above_mem_of_climbs out)).notAbove rfl

end IsPlain

theorem isPlain_iff {path : String} :
    IsPlain path ↔
      (∀ piece ∈ Path.pieces path, piece ≠ "" ∧ piece ≠ "." ∧ piece ≠ "..") ∧
        '\\' ∉ path.toList := by
  constructor
  · intro plain
    refine ⟨?_, plain.bare⟩
    intro piece member
    have step := plain.steps piece member
    exact ⟨step.isName.1, step.notHere, step.notAbove⟩
  · rintro ⟨clean, bare⟩
    refine ⟨?_, Path.ofComponents_pieces path, bare⟩
    intro piece member
    obtain ⟨nonempty, notHere, notAbove⟩ := clean piece member
    exact ⟨⟨nonempty, Path.slashFree_of_mem_pieces member⟩, notHere, notAbove⟩

/-! ## Ways of imports -/

theorem isAbsolute_of_isRelative {source : String} (relative : isRelative source = true) :
    Path.isAbsolute source = false := by
  obtain ⟨rest, shape⟩ := Text.beginsWith_iff.mp relative
  rw [Path.isAbsolute, Text.beginsWith, shape]
  rfl

theorem isRelative_slashed (source : String) :
    isRelative (Path.slashed source) = isRelative source := by
  rw [isRelative, isRelative, Text.beginsWith, Text.beginsWith, Path.slashed, Text.replaceChar,
    String.toList_ofList]
  cases source.toList with
  | nil =>
      rfl
  | cons first rest =>
      by_cases slash : first = '\\'
      · simp [slash, List.isPrefixOf]
      · simp [slash, List.isPrefixOf]

theorem isAbsolute_slashed_of_isRelative
    {source : String} (relative : isRelative source = true) :
    Path.isAbsolute (Path.slashed source) = false :=
  isAbsolute_of_isRelative ((isRelative_slashed source).trans relative)

section

variable {source importer file : String}

/-- An import means the path that its pieces lead to from the directory of the importer. -/
theorem target_of_follow?
    (importerPlain : IsPlain (Path.slashed importer)) (filePlain : IsPlain file)
    (relative : isRelative source = true)
    (leads :
      Path.follow? (Path.pieces (Path.slashed importer)).dropLast
        (Path.pieces (Path.slashed source)) = some (Path.pieces file)) :
    target source importer = file := by
  obtain ⟨above, name, split⟩ :
      ∃ above name, Path.pieces (Path.slashed importer) = above ++ [name] :=
    ⟨_, _, (List.dropLast_concat_getLast (Path.pieces_ne_nil _)).symm⟩
  have steps := importerPlain.steps
  rw [split] at steps leads
  rw [List.dropLast_concat] at leads
  have directory : Path.directory (Path.slashed importer) = Path.ofComponents above := by
    rw [← importerPlain.whole, split, Path.directory_ofComponents steps]
  have aboveSteps : ∀ other ∈ above, Path.IsStep other :=
    fun other member => steps other (List.mem_append_left _ member)
  have start : Path.follow? [] (Path.pieces (Path.ofComponents above)) = some above := by
    rw [← Path.follow?_filter, ← Path.components_eq, Path.components_ofComponents aboveSteps,
      Path.follow?_of_isStep [] aboveSteps, List.nil_append]
  have slashedRelative := isAbsolute_slashed_of_isRelative relative
  have reaches :
      Path.follow? []
          (Path.pieces (Path.join (Path.ofComponents above) (Path.slashed source))) =
        some (Path.pieces file) := by
    rw [Path.follow?_join _ _ slashedRelative, Path.follow?_append, start, Option.bind_some,
      leads]
  have joinedRelative :=
    Path.isAbsolute_join (Path.isAbsolute_ofComponents aboveSteps) slashedRelative
  obtain ⟨fileSteps, kept⟩ := Path.collapse_of_follow? reaches
  rw [target, directory,
    Path.normalize_of_components joinedRelative kept (Path.pieces_ne_nil file) fileSteps,
    filePlain.whole]

end

/-! ## Spelling a file out -/

/-- The steps up through directories that are left; a point where none is. -/
def stepsUp (left : List String) : List String :=
  if left.isEmpty then ["."] else left.map fun _ => ".."

/-- The source of an import spells the way from the directory of the importer to
the file. -/
def SpellsOut (source importer file : String) : Prop :=
  ∃ shared left below name last,
    Path.pieces importer = shared ++ left ++ [name] ∧
      Path.pieces file = shared ++ below ++ [last] ∧
      source = Path.ofComponents (stepsUp left ++ (below ++ [last]))

theorem stepsUp_ne_nil (left : List String) : stepsUp left ≠ [] := by
  cases left with
  | nil => simp [stepsUp]
  | cons first rest => simp [stepsUp]

theorem mem_stepsUp {left : List String} {name : String} (member : name ∈ stepsUp left) :
    name = "." ∨ name = ".." := by
  unfold stepsUp at member
  split at member
  · exact Or.inl (List.mem_singleton.mp member)
  · obtain ⟨_, _, rfl⟩ := List.mem_map.mp member
    exact Or.inr rfl

/-- Steps that stay where they are do not count. -/
theorem filter_stepsUp (left : List String) :
    (stepsUp left).filter Path.isCounted = left.map fun _ => ".." := by
  cases left with
  | nil =>
      rfl
  | cons first rest =>
      rw [stepsUp, List.isEmpty_cons, if_neg Bool.false_ne_true, List.filter_eq_self]
      intro name member
      obtain ⟨_, _, rfl⟩ := List.mem_map.mp member
      rfl

section

variable {left down : List String}

theorem isRelative_spelled (someName : down ≠ []) :
    isRelative (Path.ofComponents (stepsUp left ++ down)) = true := by
  obtain ⟨first, rest, shape⟩ := List.exists_cons_of_ne_nil (stepsUp_ne_nil left)
  have begins : first = "." ∨ first = ".." := mem_stepsUp (by rw [shape]; exact List.mem_cons_self)
  have restNonempty : rest ++ down ≠ [] := by simp [someName]
  rw [shape, List.cons_append, Path.ofComponents_cons _ restNonempty, isRelative, Text.beginsWith,
    String.toList_append, String.toList_append]
  rcases begins with rfl | rfl
  · rfl
  · rfl

theorem pieces_spelled
    (someName : down ≠ []) (slashFree : ∀ name ∈ down, '/' ∉ name.toList) :
    Path.pieces (Path.ofComponents (stepsUp left ++ down)) = stepsUp left ++ down := by
  apply Path.pieces_ofComponents (by simp [someName])
  intro name member
  rcases List.mem_append.mp member with inSteps | inDown
  · rcases mem_stepsUp inSteps with rfl | rfl
    · decide
    · decide
  · exact slashFree name inDown

theorem bare_spelled (bare : ∀ name ∈ down, '\\' ∉ name.toList) :
    '\\' ∉ (Path.ofComponents (stepsUp left ++ down)).toList := by
  rw [Path.mem_ofComponents (by decide)]
  rintro ⟨name, member, inName⟩
  rcases List.mem_append.mp member with inSteps | inDown
  · rcases mem_stepsUp inSteps with rfl | rfl
    · exact absurd inName (by decide)
    · exact absurd inName (by decide)
  · exact bare name inDown inName

end

section

variable {source importer file : String}

/-- What an import spells out is what it means. -/
theorem target_of_spellsOut
    (importerPlain : IsPlain importer) (filePlain : IsPlain file)
    (spelled : SpellsOut source importer file) :
    isRelative source = true ∧ target source importer = file := by
  obtain ⟨shared, left, below, name, last, importerPieces, filePieces, rfl⟩ := spelled
  have fileSteps := filePlain.steps
  have fileBare := filePlain.piece_bare
  rw [filePieces, List.append_assoc] at fileSteps fileBare
  have downSteps : ∀ other ∈ below ++ [last], Path.IsStep other :=
    fun other member => fileSteps other (List.mem_append_right _ member)
  have downBare : ∀ other ∈ below ++ [last], '\\' ∉ other.toList :=
    fun other member => fileBare other (List.mem_append_right _ member)
  have someName : below ++ [last] ≠ [] := by simp
  have relative := @isRelative_spelled left (below ++ [last]) someName
  have slashed :
      Path.slashed (Path.ofComponents (stepsUp left ++ (below ++ [last]))) =
        Path.ofComponents (stepsUp left ++ (below ++ [last])) :=
    Text.replaceChar_of_notMem (bare_spelled downBare)
  have leads :
      Path.follow? (shared ++ left) (stepsUp left ++ (below ++ [last])) =
        some (Path.pieces file) := by
    rw [Path.follow?_append, ← Path.follow?_filter, filter_stepsUp, Path.follow?_above,
      Option.bind_some, Path.follow?_of_isStep shared downSteps, filePieces, List.append_assoc]
  refine ⟨relative, target_of_follow? ?_ filePlain relative ?_⟩
  · rwa [importerPlain.slashed_eq]
  · rw [importerPlain.slashed_eq, importerPieces, List.dropLast_concat, slashed,
      pieces_spelled someName (Path.slashFree_of_isStep downSteps), leads]

/-- An import that means a path of a project is resolved among the candidates for it. -/
theorem resolve_of_target
    {isFile : String → Except ε Bool} (filePlain : IsPlain file)
    (relative : isRelative source = true) (means : target source importer = file) :
    resolve isFile source importer = firstFile isFile (candidates file) := by
  unfold resolve
  simp [relative, means, filePlain.climbs_eq_false]

/-- An import that spells a file out leads to a file with its identity exactly if
the extension is known as it is written and the path is that of a file. -/
theorem resolve_spelled_iff
    {isFile : String → Except ε Bool}
    (importerPlain : IsPlain importer) (filePlain : IsPlain file)
    (spelled : SpellsOut source importer file) :
    (∃ path, resolve isFile source importer = .ok (some path) ∧ nodeId path = nodeId file) ↔
      Path.extension file ∈ extensions ∧ isFile file = .ok true := by
  obtain ⟨relative, means⟩ := target_of_spellsOut importerPlain filePlain spelled
  rw [resolve_of_target filePlain relative means]
  constructor
  · rintro ⟨path, found, same⟩
    obtain ⟨member, holds⟩ := firstFile_some found
    rcases mem_candidates filePlain.ne_here member with
      ⟨rfl, known⟩ | ⟨behind, longer, rfl⟩
    · exact ⟨known, holds⟩
    · -- Another candidate would make an edge, but to another node.
      exact absurd same (nodeId_append_ne file longer)
  · rintro ⟨known, holds⟩
    obtain ⟨rest, first⟩ := candidates_of_known filePlain.ne_empty filePlain.ne_here known
    refine ⟨file, ?_, rfl⟩
    rw [first, firstFile, holds]

theorem importEdge?_spelled_iff
    {isFile : String → Except ε Bool} {ids : List String} {reference : Reference}
    (importerPlain : IsPlain importer) (filePlain : IsPlain file)
    (spelled : SpellsOut reference.source importer file) (known : nodeId file ∈ ids) :
    Graph.importEdge? (resolve isFile) ids importer reference =
        some ⟨nodeId importer, nodeId file, reference.source, "import"⟩ ↔
      Path.extension file ∈ extensions ∧ isFile file = .ok true := by
  rw [Graph.importEdge?_eq_some_iff, ← resolve_spelled_iff importerPlain filePlain spelled]
  constructor
  · rintro ⟨path, resolved, _, same⟩
    have targets : nodeId file = nodeId path := (Graph.Edge.mk.inj same).2.1
    exact ⟨path, resolved, targets.symm⟩
  · rintro ⟨path, resolved, same⟩
    rw [← same] at known
    refine ⟨path, resolved, known, ?_⟩
    rw [same]

end

/-- The extensions that are read are known, in small letters only. -/
theorem mem_extensions_iff
    {extension : String} (supported : Text.lower extension ∈ Script.extensions) :
    extension ∈ extensions ↔ Text.lower extension = extension := by
  have small : ∀ known ∈ extensions, Text.lower known = known := by
    decide +kernel
  have known : ∀ read ∈ Script.extensions, read ∈ extensions := by
    decide
  constructor
  · exact small extension
  · intro same
    rw [same] at supported
    exact known extension supported

end Resolution

end ModuleAtlas
