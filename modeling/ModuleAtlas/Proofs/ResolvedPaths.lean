import ModuleAtlas.Proofs.SpelledImports

/-!
# Paths that imports are resolved to

An import is resolved to a path that leads down from the root along names, and
whose end is one of the extensions that are known.  So an import of a file of the
project stays inside the project, and one that climbs out of it is resolved to
nothing, whatever files there are.  The other way round, an import whose pieces
lead to a file by its full name is resolved to that very file, however the way
is spelled and whatever other files there are.
-/

namespace ModuleAtlas

/-! ## Extensions -/

namespace Path

theorem nameExtension_suffix (name : List Char) : nameExtension name <:+ name := by
  unfold nameExtension
  dsimp only
  split
  · next pointed =>
      obtain ⟨behind, before, shape, pointFree⟩ :=
        List.eq_append_cons_of_mem (List.mem_reverse.mpr (List.contains_iff_mem.mp pointed))
      have kept : ∀ character ∈ behind, (character != '.') = true := by
        intro character member
        rw [bne_iff_ne]
        rintro rfl
        exact pointFree member
      have whole :
          name.dropWhile (· == '.') = before.reverse ++ '.' :: behind.reverse := by
        rw [← List.reverse_inj, shape]
        simp
      rw [shape, List.takeWhile_append_of_pos kept]
      simp only [List.takeWhile_cons, bne_self_eq_false, Bool.false_eq_true, if_false,
        List.append_nil]
      have cut : '.' :: behind.reverse <:+ name.dropWhile (· == '.') :=
        ⟨before.reverse, whole.symm⟩
      exact cut.trans (List.dropWhile_suffix _)
  · exact List.nil_suffix

theorem fileName_suffix (path : String) : (fileName path).toList <:+ path.toList := by
  have some := pieces_ne_nil path
  obtain ⟨front, last, split⟩ : ∃ front last, pieces path = front ++ [last] :=
    ⟨_, _, (List.dropLast_concat_getLast some).symm⟩
  have named : fileName path = last := by
    rw [fileName, split, List.getLast?_concat]
    rfl
  have whole := ofComponents_pieces path
  rw [split] at whole
  rw [named, ← whole]
  by_cases none : front = []
  · simp [none]
  · rw [ofComponents_append none (List.cons_ne_nil _ _), ofComponents_singleton,
      String.toList_append]
    exact List.suffix_append _ _

theorem endsWith_extension (path : String) : Text.endsWith path (extension path) = true := by
  rw [Text.endsWith_iff, extension, String.toList_ofList]
  exact (nameExtension_suffix _).trans (fileName_suffix path)

end Path

/-! ## Paths below a root -/

namespace Path

/-- A path leads from the mark of a root down along names. -/
def IsBelow (mark path : String) : Prop :=
  ∃ names, names ≠ [] ∧ (∀ name ∈ names, IsStep name) ∧ path = mark ++ ofComponents names

/-- A path seen from a root leads, by rule alone, to a place inside of it. -/
structure IsInside (root path : String) : Prop where
  relative : isAbsolute path = false
  steps : ∀ name ∈ pieces path, IsStep name
  absolute : isAbsolute (join root path) = isAbsolute root
  below : components (normalize (join root path)) = components (normalize root) ++ pieces path

theorem IsBelow.isInside
    {path : String} (below : IsBelow "" path) (root : String) : IsInside root path := by
  obtain ⟨names, someName, steps, shape⟩ := below
  rw [String.empty_append] at shape
  have split : pieces path = names := by
    rw [shape, pieces_ofComponents someName (slashFree_of_isStep steps)]
  have relative : isAbsolute path = false := by
    rw [shape, isAbsolute_ofComponents steps]
  have own : components path = names := by
    rw [shape, components_ofComponents steps]
  refine ⟨relative, split ▸ steps, isAbsolute_join_eq root relative, ?_⟩
  rw [components_normalize, components_normalize, isAbsolute_join_eq root relative,
    components_join root relative, own, split, collapse, collapse, List.foldl_append,
    foldl_step_names steps]
  simp

theorem IsBelow.notStep
    {path other : String} (below : IsBelow (rootMark other) path) :
    ∀ piece ∈ pieces path, piece ≠ "." ∧ piece ≠ ".." := by
  obtain ⟨names, someName, steps, rfl⟩ := below
  obtain ⟨empties, empty, split⟩ := exists_pieces_rootMark_append other (ofComponents names)
  rw [pieces_ofComponents someName (slashFree_of_isStep steps)] at split
  intro piece member
  rw [split] at member
  rcases List.mem_append.mp member with inEmpties | inNames
  · rw [empty piece inEmpties]
    decide
  · exact ⟨(steps piece inNames).notHere, (steps piece inNames).notAbove⟩

/-- A joined path ends in what is joined. -/
theorem suffix_join (base path : String) : path.toList <:+ (join base path).toList := by
  unfold join
  split
  · exact List.suffix_rfl
  · split
    · rw [String.toList_append]
      exact List.suffix_append _ _
    · rw [String.toList_append]
      exact List.suffix_append _ _

/-- The directory of a relative path is relative. -/
theorem isAbsolute_directory
    {path : String} (absolute : isAbsolute (directory path) = true) :
    isAbsolute path = true := by
  have headPrefix : (path.toList.reverse.dropWhile (· != '/')).reverse <+: path.toList := by
    rw [← List.reverse_suffix, List.reverse_reverse]
    exact List.dropWhile_suffix _
  have barePrefix (head : List Char) : Text.dropEndWhile (· == '/') head <+: head := by
    rw [← List.reverse_suffix, Text.dropEndWhile, List.reverse_reverse]
    exact List.dropWhile_suffix _
  have directoryPrefix : (directory path).toList <+: path.toList := by
    unfold directory
    dsimp only
    rw [String.toList_ofList]
    split
    · exact headPrefix
    · exact (barePrefix _).trans headPrefix
  rw [isAbsolute, Text.beginsWith, List.isPrefixOf_iff_prefix] at absolute ⊢
  exact absolute.trans directoryPrefix

/-- No slash is left behind the last of the names. -/
theorem endsWith_slash_of_isStep
    (mark : String) {names : List String} (someName : names ≠ [])
    (steps : ∀ name ∈ names, IsStep name) :
    Text.endsWith (mark ++ ofComponents names) "/" = false := by
  obtain ⟨front, last, shape, notSlash⟩ := exists_last_of_isStep someName steps
  rw [← Bool.not_eq_true, Text.endsWith_iff, String.toList_append, shape, ← List.append_assoc]
  rintro ⟨before, same⟩
  have ends := congrArg List.getLast? same
  simp [Ne.symm notSlash] at ends

theorem isAbsolute_of_isBelow
    {path : String} (below : IsBelow "" path) : isAbsolute path = false := by
  obtain ⟨names, _, steps, rfl⟩ := below
  rw [String.empty_append, isAbsolute_ofComponents steps]

end Path

namespace Resolution

variable {ε : Type}

/-! ## Candidates below a root -/

/-- What is added to a path makes a name of any text without slashes. -/
theorem isStep_append_extension
    {name extension : String} (slashFree : '/' ∉ name.toList) (known : extension ∈ extensions) :
    Path.IsStep (name ++ extension) := by
  have long : ∀ known ∈ extensions, 2 < known.length ∧ '/' ∉ known.toList := by
    decide
  obtain ⟨length, extensionFree⟩ := long extension known
  have differs : ∀ short : String, short.length ≤ 2 → name ++ extension ≠ short := by
    rintro short bounded rfl
    rw [String.length_append] at bounded
    omega
  have joinedFree : '/' ∉ (name ++ extension).toList := by
    rw [String.toList_append, List.mem_append, not_or]
    exact ⟨slashFree, extensionFree⟩
  exact ⟨⟨differs "" (by decide), joinedFree⟩, differs "." (by decide), differs ".." (by decide)⟩

/-- What is added to a path lengthens the last of its names. -/
theorem isBelow_append_extension
    {mark extension : String} {names : List String}
    (steps : ∀ name ∈ names, Path.IsStep name) (known : extension ∈ extensions) :
    Path.IsBelow mark (mark ++ Path.ofComponents names ++ extension) := by
  by_cases none : names = []
  · subst none
    refine ⟨["" ++ extension], by simp, ?_, by simp⟩
    intro name member
    exact List.mem_singleton.mp member ▸ isStep_append_extension (by simp) known
  · obtain ⟨front, last, rfl⟩ : ∃ front last, names = front ++ [last] :=
      ⟨_, _, (List.dropLast_concat_getLast none).symm⟩
    have lastFree : '/' ∉ last.toList := (steps last (by simp)).isName.2
    refine ⟨front ++ [last ++ extension], by simp, ?_, ?_⟩
    · intro name member
      rcases List.mem_append.mp member with inFront | isLast
      · exact steps name (List.mem_append_left _ inFront)
      · exact List.mem_singleton.mp isLast ▸ isStep_append_extension lastFree known
    · by_cases single : front = []
      · simp [single, String.append_assoc]
      · rw [Path.ofComponents_append single (by simp), Path.ofComponents_append single (by simp),
          Path.ofComponents_singleton, Path.ofComponents_singleton]
        simp only [String.append_assoc]

/-- The index of a directory stands one name further down. -/
theorem isBelow_join
    {path name : String} {names : List String}
    (steps : ∀ other ∈ names, Path.IsStep other) (step : Path.IsStep name) :
    Path.IsBelow (Path.rootMark path)
      (Path.join (Path.rootMark path ++ Path.ofComponents names) name) := by
  have relative : Path.isAbsolute name = false := by
    have single := @Path.isAbsolute_ofComponents [name] (by simpa using step)
    rwa [Path.ofComponents_singleton] at single
  refine ⟨names ++ [name], by simp, ?_, ?_⟩
  · intro other member
    rcases List.mem_append.mp member with above | last
    · exact steps other above
    · exact List.mem_singleton.mp last ▸ step
  · rw [Path.join, relative, if_neg Bool.false_ne_true]
    by_cases none : names = []
    · have ends :
          ((Path.rootMark path == "") || Text.endsWith (Path.rootMark path) "/") = true := by
        rcases Path.rootMark_cases path with mark | mark | mark <;> rw [mark] <;> decide
      simp [none, ends]
    · have longer : (Path.rootMark path ++ Path.ofComponents names == "") = false := by
        rw [beq_eq_false_iff_ne]
        intro empty
        exact Path.ofComponents_ne_empty none steps (String.append_eq_empty_iff.mp empty).2
      rw [longer, Path.endsWith_slash_of_isStep _ none steps, Bool.or_false,
        if_neg Bool.false_ne_true, Path.ofComponents_append none (by simp),
        Path.ofComponents_singleton]
      simp only [String.append_assoc]

theorem candidates_ne_nil (path : String) : candidates path ≠ [] := by
  unfold candidates
  generalize (if (path == ".") = true then "" else path) = base
  dsimp only
  split
  · simp [extensions]
  · simp [extensions]

/-- Every candidate ends in an extension that is known. -/
theorem endsWith_of_mem_candidates
    {path candidate : String} (member : candidate ∈ candidates path) :
    ∃ extension ∈ extensions, Text.endsWith candidate extension = true := by
  obtain ⟨base, own⟩ : ∃ base, base = if path = "." then "" else path := ⟨_, rfl⟩
  rcases candidates_cases own member with
    ⟨rfl, known⟩ | ⟨extension, known, rfl⟩ | ⟨extension, known, rfl⟩
  · exact ⟨_, known, Path.endsWith_extension _⟩
  · refine ⟨extension, known, ?_⟩
    rw [Text.endsWith_iff, String.toList_append]
    exact List.suffix_append _ _
  · refine ⟨extension, known, ?_⟩
    have ends : extension.toList <:+ ("index" ++ extension).toList := by
      rw [String.toList_append]
      exact List.suffix_append _ _
    rw [Text.endsWith_iff]
    exact ends.trans (Path.suffix_join base _)

/-- Where carrying steps out leaves names alone, the candidates lie below the root. -/
theorem isBelow_of_mem_candidates
    {path candidate : String}
    (steps : ∀ name ∈ Path.collapse (Path.isAbsolute path) (Path.components path),
      Path.IsStep name)
    (member : candidate ∈ candidates (Path.normalize path)) :
    Path.IsBelow (Path.rootMark path) candidate := by
  have base :
      Path.normalText path =
        if Path.normalize path = "." then "" else Path.normalize path := by
    rw [Path.normalize_eq]
    split
    · next empty => simp [empty]
    · rw [if_neg (Path.normalText_ne_here path)]
  rcases candidates_cases base member with
    ⟨rfl, known⟩ | ⟨extension, known, rfl⟩ | ⟨extension, known, rfl⟩
  · refine ⟨_, ?_, steps, rfl⟩
    intro none
    rw [Path.normalText, none, Path.ofComponents_nil, String.append_empty] at known
    rcases Path.rootMark_cases path with mark | mark | mark
    · exact absurd (mark ▸ known) (by decide)
    · exact absurd (mark ▸ known) (by decide)
    · exact absurd (mark ▸ known) (by decide)
  · exact isBelow_append_extension steps known
  · exact isBelow_join steps (isStep_append_extension (by decide) known)

/-! ## Climbing out -/

/-- The normal form of a relative path climbs exactly if following it leads above
the start. -/
theorem climbs_normalize_iff
    {path : String} (relative : Path.isAbsolute path = false) :
    climbs (Path.normalize path) = true ↔ Path.follow? [] (Path.pieces path) = none := by
  constructor
  · intro out
    have above := above_mem_of_climbs out
    by_contra stays
    obtain ⟨reached, leads⟩ := Option.ne_none_iff_exists'.mp stays
    obtain ⟨steps, kept⟩ := Path.collapse_of_follow? leads
    have counted : ".." ∈ Path.components (Path.normalize path) :=
      Path.mem_components_iff.mpr ⟨above, by decide, by decide⟩
    rw [Path.components_normalize, relative, kept] at counted
    exact (steps ".." counted).notAbove rfl
  · intro lost
    obtain ⟨rest, kept⟩ := Path.collapse_of_follow?_eq_none lost
    have text : Path.normalText path = Path.ofComponents (".." :: rest) := by
      rw [Path.normalText, relative, kept, Path.rootMark_of_relative relative,
        String.empty_append]
    rw [Path.normalize_eq, text, climbs]
    by_cases last : rest = []
    · subst last
      decide
    · rw [Path.ofComponents_cons _ last]
      simp [Text.beginsWith]

/-- The way that an import goes, from the root to the directory of the importer and
on along the source, leads above the root. -/
def ClimbsOut (source importer : String) : Prop :=
  Path.follow? []
    (Path.pieces (Path.directory (Path.slashed importer)) ++
      Path.pieces (Path.slashed source)) = none

section

variable {source importer path : String}

theorem isAbsolute_joined
    (relative : isRelative source = true)
    (importerRelative : Path.isAbsolute (Path.slashed importer) = false) :
    Path.isAbsolute
      (Path.join (Path.directory (Path.slashed importer)) (Path.slashed source)) = false := by
  have directoryRelative : Path.isAbsolute (Path.directory (Path.slashed importer)) = false := by
    rw [← Bool.not_eq_true] at importerRelative ⊢
    exact mt Path.isAbsolute_directory importerRelative
  exact Path.isAbsolute_join directoryRelative (isAbsolute_slashed_of_isRelative relative)

theorem climbs_target_iff
    (relative : isRelative source = true)
    (importerRelative : Path.isAbsolute (Path.slashed importer) = false) :
    climbs (target source importer) = true ↔ ClimbsOut source importer := by
  rw [target, climbs_normalize_iff (isAbsolute_joined relative importerRelative), ClimbsOut,
    Path.follow?_join _ _ (isAbsolute_slashed_of_isRelative relative)]

/-- A path that an import is resolved to lies below the root that its way starts from. -/
theorem isBelow_of_mem_target
    (stays : climbs (target source importer) = false)
    (member : path ∈ candidates (target source importer)) :
    Path.IsBelow
      (Path.rootMark (Path.join (Path.directory (Path.slashed importer)) (Path.slashed source)))
      path := by
  refine isBelow_of_mem_candidates ?_ member
  intro name kept
  have named := Path.isName_of_mem_components (Path.mem_of_mem_collapse kept)
  refine ⟨named.1, named.2, ?_⟩
  rintro rfl
  cases absolute :
      Path.isAbsolute
        (Path.join (Path.directory (Path.slashed importer)) (Path.slashed source)) with
  | true =>
      rw [absolute, Path.collapse, List.mem_reverse] at kept
      exact Path.notAbove_foldl_step List.not_mem_nil _ kept
  | false =>
      have reaches := mt (climbs_normalize_iff absolute).mpr (by simpa [target] using stays)
      obtain ⟨reached, leads⟩ := Option.ne_none_iff_exists'.mp reaches
      obtain ⟨steps, carried⟩ := Path.collapse_of_follow? leads
      rw [absolute, carried] at kept
      exact (steps ".." kept).notAbove rfl

end

section

variable {isFile : String → Except ε Bool} {source importer path : String}

theorem resolve_some
    (found : resolve isFile source importer = .ok (some path)) :
    isRelative source = true ∧ climbs (target source importer) = false ∧
      path ∈ candidates (target source importer) ∧ isFile path = .ok true := by
  unfold resolve at found
  cases relative : isRelative source with
  | false =>
      simp [relative] at found
  | true =>
      cases out : climbs (target source importer) with
      | true =>
          simp [relative, out] at found
      | false =>
          simp only [relative, out, Bool.not_true, Bool.false_eq_true, if_false] at found
          exact ⟨rfl, rfl, firstFile_some found⟩

theorem resolve_of_climbsOut
    (importerRelative : Path.isAbsolute (Path.slashed importer) = false)
    (out : ClimbsOut source importer) :
    resolve isFile source importer = .ok none := by
  unfold resolve
  cases relative : isRelative source with
  | false =>
      simp
  | true =>
      simp [(climbs_target_iff relative importerRelative).mpr out]

/-- A path that an import is resolved to, as the import and the importer confine it. -/
structure IsConfined (isFile : String → Except ε Bool) (source importer path : String) :
    Prop where
  relative : Text.beginsWith source "." = true
  isThere : isFile path = .ok true
  known : ∃ extension ∈ extensions, Text.endsWith path extension = true
  clean : ∀ piece ∈ Path.pieces path, piece ≠ "." ∧ piece ≠ ".."
  absolute : Path.isAbsolute path = true → Path.isAbsolute (Path.slashed importer) = true
  inside :
    Path.isAbsolute (Path.slashed importer) = false → ∀ root, Path.IsInside root path

theorem isConfined_of_resolve
    (found : resolve isFile source importer = .ok (some path)) :
    IsConfined isFile source importer path := by
  obtain ⟨relative, stays, member, isThere⟩ := resolve_some found
  have below := isBelow_of_mem_target stays member
  have belowNothing :
      Path.isAbsolute (Path.slashed importer) = false → Path.IsBelow "" path := by
    intro importerRelative
    rwa [Path.rootMark_of_relative (isAbsolute_joined relative importerRelative)] at below
  refine ⟨relative, isThere, endsWith_of_mem_candidates member, below.notStep, ?_, ?_⟩
  · intro absolute
    by_contra importerRelative
    rw [Bool.not_eq_true] at importerRelative
    rw [Path.isAbsolute_of_isBelow (belowNothing importerRelative)] at absolute
    exact Bool.false_ne_true absolute
  · exact fun importerRelative => (belowNothing importerRelative).isInside

end

/-- What an import is resolved to is a file with a known extension and a path without
steps, absolute only if the importer is, and inside of the root otherwise.  With
an importer seen from the root, an import is resolved to nothing whatever files
there are exactly if it is not relative or climbs out. -/
theorem resolution_confined (isFile : String → Except ε Bool) (source importer : String) :
    (∀ path, resolve isFile source importer = .ok (some path) →
      IsConfined isFile source importer path) ∧
    (Path.isAbsolute (Path.slashed importer) = false →
      (ClimbsOut source importer → resolve isFile source importer = .ok none) ∧
      (isRelative source = true → ¬ClimbsOut source importer →
        ∃ path, resolve (fun _ => (.ok true : Except ε Bool)) source importer =
          .ok (some path))) := by
  refine ⟨fun path => isConfined_of_resolve, ?_⟩
  intro importerRelative
  refine ⟨resolve_of_climbsOut importerRelative, ?_⟩
  intro relative stays
  have notOut : climbs (target source importer) = false := by
    rw [← Bool.not_eq_true]
    exact mt (climbs_target_iff relative importerRelative).mp stays
  obtain ⟨first, rest, listed⟩ :=
    List.exists_cons_of_ne_nil (candidates_ne_nil (target source importer))
  refine ⟨first, ?_⟩
  unfold resolve
  simp [relative, notOut, listed, firstFile]

/-- With steps up and to the side an import of a file two directories down leads to the
only file there is; one directory down the same steps climb out. -/
theorem resolution_confined_helpers :
    let isFile : String → Except Empty Bool := fun path => .ok (path == "lib/helpers.js")
    let source := "..\\../src/./../lib//helpers"
    (resolve isFile source "src\\pages/home.js" = .ok (some "lib/helpers.js") ∧
      IsConfined isFile source "src\\pages/home.js" "lib/helpers.js") ∧
    Path.isAbsolute (Path.slashed "src\\home.js") = false ∧ ClimbsOut source "src\\home.js" ∧
      resolve isFile source "src\\home.js" = .ok none := by
  intro isFile source
  have found : resolve isFile source "src\\pages/home.js" = .ok (some "lib/helpers.js") := by
    decide +kernel
  have importerRelative : Path.isAbsolute (Path.slashed "src\\home.js") = false := by
    decide
  have out : ClimbsOut source "src\\home.js" := by
    unfold ClimbsOut
    decide +kernel
  exact
    ⟨⟨found, (resolution_confined isFile source "src\\pages/home.js").1 _ found⟩,
      importerRelative, out,
      ((resolution_confined isFile source "src\\home.js").2 importerRelative).1 out⟩

/-! ## Ways to a file -/

section

variable {source importer file : String}

theorem isRelative_of_begins
    (begins : Text.beginsWith (Path.slashed source) "./" = true ∨
      Text.beginsWith (Path.slashed source) "../" = true) :
    isRelative source = true := by
  rw [← isRelative_slashed, isRelative]
  rcases begins with here | above
  · obtain ⟨rest, shape⟩ := Text.beginsWith_iff.mp here
    exact Text.beginsWith_iff.mpr ⟨'/' :: rest, shape⟩
  · obtain ⟨rest, shape⟩ := Text.beginsWith_iff.mp above
    exact Text.beginsWith_iff.mpr ⟨'.' :: '/' :: rest, shape⟩

/-- An import whose pieces lead from the directory of the importer to a file with a
known extension is resolved to this file, whatever other files there are.  Backslashes
count as slashes, in the import as in the path of the importer. -/
theorem followed_import_resolves
    {isFile : String → Except ε Bool}
    (importerPlain : IsPlain (Path.slashed importer)) (filePlain : IsPlain file)
    (isThere : isFile file = .ok true) (known : Path.extension file ∈ extensions)
    (begins : Text.beginsWith (Path.slashed source) "./" = true ∨
      Text.beginsWith (Path.slashed source) "../" = true)
    (leads :
      Path.follow? (Path.pieces (Path.slashed importer)).dropLast
        (Path.pieces (Path.slashed source)) = some (Path.pieces file)) :
    resolve isFile source importer = .ok (some file) := by
  have relative := isRelative_of_begins begins
  have means := target_of_follow? importerPlain filePlain relative leads
  obtain ⟨rest, first⟩ := candidates_of_known filePlain.ne_empty filePlain.ne_here known
  rw [resolve_of_target filePlain relative means, first, firstFile, isThere]

/-- Where every path is that of a file, the exact one is taken. -/
theorem followed_import_resolves_helpers :
    let isFile : String → Except Empty Bool := fun _ => .ok true
    IsPlain (Path.slashed "src\\pages/home.js") ∧ IsPlain "lib/helpers.js" ∧
      isFile "lib/helpers.js" = .ok true ∧ Path.extension "lib/helpers.js" ∈ extensions ∧
      Text.beginsWith (Path.slashed "..\\../src/./..\\lib//helpers.js") "../" = true ∧
      Path.follow? (Path.pieces (Path.slashed "src\\pages/home.js")).dropLast
          (Path.pieces (Path.slashed "..\\../src/./..\\lib//helpers.js")) =
        some (Path.pieces "lib/helpers.js") ∧
      resolve isFile "..\\../src/./..\\lib//helpers.js" "src\\pages/home.js" =
        .ok (some "lib/helpers.js") := by
  intro isFile
  have importerPlain : IsPlain (Path.slashed "src\\pages/home.js") :=
    isPlain_iff.mpr (by decide +kernel)
  have filePlain : IsPlain "lib/helpers.js" := isPlain_iff.mpr (by decide +kernel)
  have known : Path.extension "lib/helpers.js" ∈ extensions := by
    decide +kernel
  have begins :
      Text.beginsWith (Path.slashed "..\\../src/./..\\lib//helpers.js") "../" = true := by
    decide +kernel
  have leads :
      Path.follow? (Path.pieces (Path.slashed "src\\pages/home.js")).dropLast
          (Path.pieces (Path.slashed "..\\../src/./..\\lib//helpers.js")) =
        some (Path.pieces "lib/helpers.js") := by
    decide +kernel
  exact ⟨importerPlain, filePlain, rfl, known, begins, leads,
    followed_import_resolves importerPlain filePlain rfl known (Or.inr begins) leads⟩

end

end Resolution

end ModuleAtlas
