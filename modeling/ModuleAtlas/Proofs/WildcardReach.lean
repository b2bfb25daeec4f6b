import Mathlib.Data.List.DropRight
import Mathlib.Data.List.Forall2
import ModuleAtlas.Ignore.Rule
import ModuleAtlas.Proofs.PathNormalForm

/-!
# Reach of wildcards

A pattern with a slash is compared with a whole path, and to a wildcard a slash
is a character like any other.  So each piece of such a pattern takes one or
more pieces of the path that follow each other.  Only where the path has as
many pieces as the pattern does each piece match its own, and a pattern with a
star always covers paths that have more.
-/

namespace ModuleAtlas

namespace Glob

/-! ## Elements -/

variable {elements first second : List Wild} {characters : List Char}

theorem accepts_nil_iff : accepts [] characters = true ↔ characters = [] := by
  rw [accepts, List.isEmpty_iff]

theorem accepts_run_iff :
    accepts (.run :: elements) characters = true ↔
      ∃ taken rest, characters = taken ++ rest ∧ accepts elements rest = true := by
  induction characters with
  | nil =>
      rw [accepts]
      constructor
      · intro accepted
        exact ⟨[], [], rfl, accepted⟩
      · rintro ⟨taken, rest, shape, accepted⟩
        rwa [(List.append_eq_nil_iff.mp shape.symm).2] at accepted
  | cons character characters inductionHypothesis =>
      rw [accepts, Bool.or_eq_true, inductionHypothesis]
      constructor
      · rintro (accepted | ⟨taken, rest, rfl, accepted⟩)
        · exact ⟨[], _, rfl, accepted⟩
        · exact ⟨character :: taken, rest, rfl, accepted⟩
      · rintro ⟨taken, rest, shape, accepted⟩
        cases taken with
        | nil =>
            rw [List.nil_append] at shape
            exact Or.inl (shape ▸ accepted)
        | cons other taken =>
            exact Or.inr ⟨taken, rest, (List.cons.inj shape).2, accepted⟩

theorem accepts_cons_iff {element : Wild} (single : element ≠ .run) :
    accepts (element :: elements) characters = true ↔
      ∃ character rest, characters = character :: rest ∧
        element.accepts character = true ∧ accepts elements rest = true := by
  cases characters with
  | nil =>
      have refused : accepts (element :: elements) [] = false := by
        cases element with
        | run => exact absurd rfl single
        | _ => rw [accepts]; simp
      simp [refused]
  | cons character rest =>
      have stepped :
          accepts (element :: elements) (character :: rest) =
            (element.accepts character && accepts elements rest) := by
        cases element with
        | run => exact absurd rfl single
        | _ => rw [accepts]; simp
      rw [stepped, Bool.and_eq_true]
      constructor
      · intro accepted
        exact ⟨character, rest, rfl, accepted⟩
      · rintro ⟨_, _, shape, accepted⟩
        cases shape
        exact accepted

/-- Elements that follow each other take characters that follow each other. -/
theorem accepts_append_iff :
    accepts (first ++ second) characters = true ↔
      ∃ front back, characters = front ++ back ∧
        accepts first front = true ∧ accepts second back = true := by
  induction first generalizing characters with
  | nil =>
      simp [accepts_nil_iff]
  | cons element first inductionHypothesis =>
      rw [List.cons_append]
      by_cases run : element = .run
      · subst run
        simp only [accepts_run_iff, inductionHypothesis]
        constructor
        · rintro ⟨taken, _, rfl, front, back, rfl, own, later⟩
          exact ⟨taken ++ front, back, by simp, ⟨taken, front, rfl, own⟩, later⟩
        · rintro ⟨_, back, rfl, ⟨taken, front, rfl, own⟩, later⟩
          exact ⟨taken, front ++ back, by simp, front, back, rfl, own, later⟩
      · simp only [accepts_cons_iff run, inductionHypothesis]
        constructor
        · rintro ⟨character, _, rfl, fits, front, back, rfl, own, later⟩
          exact ⟨character :: front, back, rfl, ⟨character, front, rfl, fits, own⟩, later⟩
        · rintro ⟨_, back, rfl, ⟨character, front, rfl, fits, own⟩, later⟩
          exact ⟨character, front ++ back, rfl, fits, front, back, rfl, own, later⟩

/-! ## Patterns without brackets -/

/-- What a character of a pattern stands for, unless it opens a bracket. -/
def Wild.ofChar (character : Char) : Wild :=
  if character = '*' then .run else if character = '?' then .any else .one character

theorem elements_eq_map
    {fuel : Nat} (enough : characters.length ≤ fuel) (unbracketed : '[' ∉ characters) :
    Glob.elements fuel characters = characters.map Wild.ofChar := by
  induction characters generalizing fuel with
  | nil =>
      cases fuel <;> simp [Glob.elements]
  | cons character rest inductionHypothesis =>
      cases fuel with
      | zero => simp at enough
      | succ fuel =>
          have ordinary : character ≠ '[' := fun same => unbracketed (by simp [same])
          have later : Glob.elements fuel rest = rest.map Wild.ofChar :=
            inductionHypothesis (Nat.le_of_succ_le_succ enough)
              fun member => unbracketed (List.mem_cons_of_mem character member)
          rw [Glob.elements, later, List.map_cons, Wild.ofChar]
          split
          · rfl
          · split
            · rfl
            · rfl

theorem matchesText_eq_accepts
    {pattern : String} (unbracketed : '[' ∉ pattern.toList) (text : String) :
    matchesText pattern text = accepts (pattern.toList.map Wild.ofChar) text.toList := by
  have enough : pattern.toList.length ≤ pattern.length := Nat.le_of_eq String.length_toList
  rw [matchesText, parse, elements_eq_map enough unbracketed]

/-- A slash in a pattern stands for itself. -/
theorem accepts_slash_iff :
    accepts (.one '/' :: elements) characters = true ↔
      ∃ rest, characters = '/' :: rest ∧ accepts elements rest = true := by
  rw [accepts_cons_iff (by simp)]
  simp [Wild.accepts]

theorem matchesText_append_slash_iff
    {left right text : String} (leftUnbracketed : '[' ∉ left.toList)
    (rightUnbracketed : '[' ∉ right.toList) :
    matchesText (left ++ "/" ++ right) text = true ↔
      ∃ front back, text = front ++ "/" ++ back ∧
        matchesText left front = true ∧ matchesText right back = true := by
  have shape : (left ++ "/" ++ right).toList = left.toList ++ '/' :: right.toList := by
    simp
  have unbracketed : '[' ∉ (left ++ "/" ++ right).toList := by
    rw [shape]
    simp [leftUnbracketed, rightUnbracketed]
  have slash : Wild.ofChar '/' = .one '/' := by decide
  rw [matchesText_eq_accepts unbracketed, shape, List.map_append, List.map_cons, slash,
    accepts_append_iff]
  simp only [accepts_slash_iff]
  constructor
  · rintro ⟨front, _, whole, own, back, rfl, later⟩
    refine ⟨String.ofList front, String.ofList back, ?_, ?_, ?_⟩
    · rw [← String.toList_inj, whole]
      simp
    · rwa [matchesText_eq_accepts leftUnbracketed, String.toList_ofList]
    · rwa [matchesText_eq_accepts rightUnbracketed, String.toList_ofList]
  · rintro ⟨front, back, rfl, own, later⟩
    rw [matchesText_eq_accepts leftUnbracketed] at own
    rw [matchesText_eq_accepts rightUnbracketed] at later
    exact ⟨front.toList, _, by simp, own, back.toList, rfl, later⟩

end Glob

namespace Path

/-! ## Numbers of pieces -/

theorem pieces_ofComponents_eq_flatMap {parts : List String} (someParts : parts ≠ []) :
    pieces (ofComponents parts) = parts.flatMap pieces := by
  induction parts with
  | nil =>
      exact absurd rfl someParts
  | cons part rest inductionHypothesis =>
      by_cases last : rest = []
      · simp [last]
      · rw [ofComponents_cons part last, pieces_append_slash, inductionHypothesis last,
          List.flatMap_cons]

theorem length_splitList (separator : Char) (characters : List Char) :
    (Text.splitList separator characters).length = characters.count separator + 1 := by
  induction characters with
  | nil =>
      rfl
  | cons character rest inductionHypothesis =>
      rw [Text.splitList]
      by_cases same : character = separator
      · rw [if_pos same, List.length_cons, inductionHypothesis, same, List.count_cons_self]
      · rw [if_neg same, List.count_cons_of_ne same]
        cases split : Text.splitList separator rest with
        | nil => exact absurd split (Text.splitList_ne_nil separator rest)
        | cons first others =>
            rw [split] at inductionHypothesis
            exact inductionHypothesis

/-- A path has one piece more than it has slashes. -/
theorem length_pieces (path : String) :
    (pieces path).length = path.toList.count '/' + 1 := by
  rw [pieces, Text.split, List.length_map, length_splitList]

theorem one_le_length_pieces (path : String) : 1 ≤ (pieces path).length := by
  have nonempty := pieces_ne_nil path
  exact List.length_pos_iff.mpr nonempty

theorem length_le_flatMap_pieces (parts : List String) :
    parts.length ≤ (parts.flatMap pieces).length := by
  induction parts with
  | nil =>
      exact Nat.le_refl 0
  | cons part rest inductionHypothesis =>
      have own := one_le_length_pieces part
      rw [List.flatMap_cons, List.length_append, List.length_cons]
      omega

/-- Parts that have no more pieces than they are many are pieces themselves. -/
theorem flatMap_pieces_of_length_eq
    {parts : List String} (same : (parts.flatMap pieces).length = parts.length) :
    parts.flatMap pieces = parts := by
  induction parts with
  | nil =>
      rfl
  | cons part rest inductionHypothesis =>
      have own := one_le_length_pieces part
      have others := length_le_flatMap_pieces rest
      rw [List.flatMap_cons, List.length_append, List.length_cons] at same
      have single : (pieces part).length = 1 := by omega
      have restSame : (rest.flatMap pieces).length = rest.length := by omega
      obtain ⟨piece, only⟩ := List.length_eq_one_iff.mp single
      have whole := ofComponents_pieces part
      rw [only, ofComponents_singleton] at whole
      rw [List.flatMap_cons, inductionHypothesis restSame, only, whole]
      rfl

end Path

namespace Glob

open ModuleAtlas.Path (pieces ofComponents)

/-! ## Pieces of patterns -/

/-- Each piece of the pattern matches its part of the path. -/
def Spreads (pattern path : String) (parts : List String) : Prop :=
  List.Forall₂ (fun piece part => matchesText piece part = true) (pieces pattern) parts ∧
    parts.flatMap pieces = pieces path

/-- Each piece of the pattern matches a piece of the path, and none is left over. -/
def MatchesPiecewise (pattern path : String) : Prop :=
  List.Forall₂ (fun piece part => matchesText piece part = true) (pieces pattern) (pieces path)

theorem matchesText_ofComponents_iff
    {own : List String} (someOwn : own ≠ [])
    (unbracketed : ∀ piece ∈ own, '[' ∉ piece.toList) {text : String} :
    matchesText (ofComponents own) text = true ↔
      ∃ parts, List.Forall₂ (fun piece part => matchesText piece part = true) own parts ∧
        ofComponents parts = text := by
  induction own generalizing text with
  | nil =>
      exact absurd rfl someOwn
  | cons piece rest inductionHypothesis =>
      by_cases last : rest = []
      · subst last
        simp [List.forall₂_cons_left_iff]
      · have ownUnbracketed : '[' ∉ piece.toList := unbracketed piece List.mem_cons_self
        have others : ∀ piece ∈ rest, '[' ∉ piece.toList :=
          fun other member => unbracketed other (List.mem_cons_of_mem piece member)
        have restUnbracketed : '[' ∉ (ofComponents rest).toList := by
          rw [Path.mem_ofComponents (by decide)]
          rintro ⟨other, member, bracket⟩
          exact others other member bracket
        rw [Path.ofComponents_cons piece last, matchesText_append_slash_iff ownUnbracketed
            restUnbracketed]
        constructor
        · rintro ⟨front, back, rfl, matched, later⟩
          obtain ⟨parts, fits, rfl⟩ := (inductionHypothesis last others).mp later
          have someParts : parts ≠ [] := by
            rintro rfl
            exact last (List.forall₂_nil_right_iff.mp fits)
          exact ⟨front :: parts, .cons matched fits, Path.ofComponents_cons front someParts⟩
        · rintro ⟨_, fits, rfl⟩
          obtain ⟨front, parts, matched, later, rfl⟩ := List.forall₂_cons_left_iff.mp fits
          have someParts : parts ≠ [] := by
            rintro rfl
            exact last (List.forall₂_nil_right_iff.mp later)
          exact ⟨front, ofComponents parts, Path.ofComponents_cons front someParts, matched,
            (inductionHypothesis last others).mpr ⟨parts, later, rfl⟩⟩

/-- A pattern without brackets matches a path if its pieces spread over it. -/
theorem matchesText_iff_spreads
    {pattern : String} (unbracketed : '[' ∉ pattern.toList) {path : String} :
    matchesText pattern path = true ↔ ∃ parts, Spreads pattern path parts := by
  have piecesUnbracketed : ∀ piece ∈ pieces pattern, '[' ∉ piece.toList := by
    intro piece member bracket
    rw [← Path.ofComponents_pieces pattern, Path.mem_ofComponents (by decide)] at unbracketed
    exact unbracketed ⟨piece, member, bracket⟩
  have somePieces := Path.pieces_ne_nil pattern
  have whole : matchesText pattern path = matchesText (ofComponents (pieces pattern)) path := by
    rw [Path.ofComponents_pieces]
  rw [whole, matchesText_ofComponents_iff somePieces piecesUnbracketed]
  constructor
  · rintro ⟨parts, fits, rfl⟩
    have someParts : parts ≠ [] := by
      rintro rfl
      exact somePieces (List.forall₂_nil_right_iff.mp fits)
    exact ⟨parts, fits, (Path.pieces_ofComponents_eq_flatMap someParts).symm⟩
  · rintro ⟨parts, fits, spread⟩
    have someParts : parts ≠ [] := by
      rintro rfl
      exact somePieces (List.forall₂_nil_right_iff.mp fits)
    refine ⟨parts, fits, ?_⟩
    rw [← Path.ofComponents_pieces path, ← spread, ← Path.pieces_ofComponents_eq_flatMap someParts,
      Path.ofComponents_pieces]

theorem Spreads.length_le
    {pattern path : String} {parts : List String} (spreads : Spreads pattern path parts) :
    (pieces pattern).length ≤ (pieces path).length := by
  rw [spreads.1.length_eq, ← spreads.2]
  exact Path.length_le_flatMap_pieces parts

/-- Only a wildcard that takes a slash keeps the pieces from matching one by one. -/
theorem Spreads.matchesPiecewise_iff
    {pattern path : String} {parts : List String} (spreads : Spreads pattern path parts) :
    MatchesPiecewise pattern path ↔ (pieces path).length = (pieces pattern).length := by
  constructor
  · intro piecewise
    exact piecewise.length_eq.symm
  · intro same
    have partsSame : (parts.flatMap pieces).length = parts.length := by
      rw [spreads.2, same, spreads.1.length_eq]
    have partsArePieces := Path.flatMap_pieces_of_length_eq partsSame
    rw [spreads.2] at partsArePieces
    rw [MatchesPiecewise, partsArePieces]
    exact spreads.1

/-! ## Paths deeper than a pattern -/

/-- What a character of a pattern may take: a star takes a slash between letters. -/
def deepen (character : Char) : List Char :=
  if character = '*' then ['x', '/', 'x'] else if character = '?' then ['x'] else [character]

/-- A path that a pattern without brackets matches, with a slash more for each star. -/
def deepened (pattern : String) : String :=
  String.ofList (pattern.toList.flatMap deepen)

theorem accepts_deepen (characters : List Char) :
    accepts (characters.map Wild.ofChar) (characters.flatMap deepen) = true := by
  induction characters with
  | nil =>
      rw [List.map_nil, accepts_nil_iff, List.flatMap_nil]
  | cons character rest inductionHypothesis =>
      rw [List.map_cons, List.flatMap_cons, Wild.ofChar, deepen]
      by_cases star : character = '*'
      · rw [if_pos star, if_pos star, accepts_run_iff]
        exact ⟨_, _, rfl, inductionHypothesis⟩
      · rw [if_neg star, if_neg star]
        by_cases mark : character = '?'
        · rw [if_pos mark, if_pos mark, accepts_cons_iff (by simp)]
          exact ⟨_, _, rfl, rfl, inductionHypothesis⟩
        · rw [if_neg mark, if_neg mark, accepts_cons_iff (by simp)]
          exact ⟨_, _, rfl, by simp [Wild.accepts], inductionHypothesis⟩

theorem matchesText_deepened {pattern : String} (unbracketed : '[' ∉ pattern.toList) :
    matchesText pattern (deepened pattern) = true := by
  rw [matchesText_eq_accepts unbracketed, deepened, String.toList_ofList]
  exact accepts_deepen pattern.toList

theorem count_slash_deepen (characters : List Char) :
    (characters.flatMap deepen).count '/' = characters.count '/' + characters.count '*' := by
  induction characters with
  | nil =>
      rfl
  | cons character rest inductionHypothesis =>
      have own :
          (deepen character).count '/' = [character].count '/' + [character].count '*' := by
        rw [deepen]
        by_cases star : character = '*'
        · simp [star]
        · by_cases mark : character = '?' <;> simp [star, mark]
      have split : character :: rest = [character] ++ rest := rfl
      rw [List.flatMap_cons, split]
      simp only [List.count_append]
      omega

theorem length_pieces_deepened (pattern : String) :
    (pieces (deepened pattern)).length =
      (pieces pattern).length + pattern.toList.count '*' := by
  rw [Path.length_pieces, Path.length_pieces, deepened, String.toList_ofList, count_slash_deepen]
  omega

/-- Every piece of the deeper path is one of the pattern or holds one of the new letters. -/
theorem splitList_deepen (characters : List Char) :
    ∃ first others deepFirst deepOthers,
      Text.splitList '/' characters = first :: others ∧
      Text.splitList '/' (characters.flatMap deepen) = deepFirst :: deepOthers ∧
      (deepFirst = first ∨ 'x' ∈ deepFirst) ∧
      ∀ piece ∈ deepOthers, piece ∈ others ∨ 'x' ∈ piece := by
  induction characters with
  | nil =>
      exact ⟨[], [], [], [], rfl, rfl, Or.inl rfl, by simp⟩
  | cons character rest inductionHypothesis =>
      obtain ⟨first, others, deepFirst, deepOthers, plain, deep, head, tail⟩ :=
        inductionHypothesis
      rw [List.flatMap_cons, deepen]
      by_cases star : character = '*'
      · refine ⟨'*' :: first, others, ['x'], ('x' :: deepFirst) :: deepOthers, ?_, ?_, ?_, ?_⟩
        · simp [Text.splitList, plain, star]
        · simp [Text.splitList, deep, star]
        · exact Or.inr List.mem_cons_self
        · exact List.forall_mem_cons.mpr ⟨Or.inr List.mem_cons_self, tail⟩
      · rw [if_neg star]
        by_cases mark : character = '?'
        · refine ⟨'?' :: first, others, 'x' :: deepFirst, deepOthers, ?_, ?_, ?_, tail⟩
          · simp [Text.splitList, plain, mark]
          · simp [Text.splitList, deep, mark]
          · exact Or.inr List.mem_cons_self
        · rw [if_neg mark, List.singleton_append]
          by_cases slash : character = '/'
          · refine ⟨[], first :: others, [], deepFirst :: deepOthers, ?_, ?_, Or.inl rfl, ?_⟩
            · simp [Text.splitList, plain, slash]
            · simp [Text.splitList, deep, slash]
            · refine List.forall_mem_cons.mpr ⟨?_, fun piece member => ?_⟩
              · rcases head with rfl | letter
                · exact Or.inl List.mem_cons_self
                · exact Or.inr letter
              · exact (tail piece member).imp_left (List.mem_cons_of_mem first)
          · refine
              ⟨character :: first, others, character :: deepFirst, deepOthers, ?_, ?_, ?_, tail⟩
            · simp [Text.splitList, plain, slash]
            · simp [Text.splitList, deep, slash]
            · exact head.imp (congrArg (character :: ·)) (List.mem_cons_of_mem character)

theorem isStep_of_mem_deepened
    {pattern : String} (steps : ∀ piece ∈ pieces pattern, Path.IsStep piece) :
    ∀ piece ∈ pieces (deepened pattern), Path.IsStep piece := by
  intro piece member
  obtain ⟨first, others, deepFirst, deepOthers, plain, deep, head, tail⟩ :=
    splitList_deepen pattern.toList
  have slashFree : '/' ∉ piece.toList := Path.slashFree_of_mem_pieces member
  rw [pieces, Text.split, deepened, String.toList_ofList, deep] at member
  obtain ⟨characters, listed, rfl⟩ := List.mem_map.mp member
  have origin : characters ∈ first :: others ∨ 'x' ∈ characters := by
    rcases List.mem_cons.mp listed with rfl | later
    · rcases head with rfl | letter
      · exact Or.inl List.mem_cons_self
      · exact Or.inr letter
    · exact (tail characters later).imp_left (List.mem_cons_of_mem first)
  rcases origin with own | letter
  · apply steps
    rw [pieces, Text.split, plain]
    exact List.mem_map_of_mem own
  · have holdsLetter : 'x' ∈ (String.ofList characters).toList := by
      rwa [String.toList_ofList]
    refine ⟨⟨?_, slashFree⟩, ?_, ?_⟩
    · intro same
      simp [same] at holdsLetter
    · intro same
      simp [same] at holdsLetter
    · intro same
      simp [same] at holdsLetter

end Glob

namespace Ignore

open ModuleAtlas.Path (pieces IsStep)

namespace Rule

/-! ## Rules of patterns with slashes -/

variable {pattern : String} {negated : Bool} {rule : Rule}

/-- The text of a pattern that its rule compares. -/
def comparedText (pattern : String) : List Char :=
  (cutStart (cutEnd (Text.trimList pattern.toList)).1).1

theorem eq_of_ofPattern? (means : ofPattern? pattern negated = some rule) :
    rule =
      { pattern := String.ofList (comparedText pattern)
        directoryOnly := (cutEnd (Text.trimList pattern.toList)).2
        anchored := (cutStart (cutEnd (Text.trimList pattern.toList)).1).2
        negated := negated
        hasSlash := (comparedText pattern).contains '/' } := by
  unfold ofPattern? at means
  dsimp only at means
  split at means
  · cases means
  · exact (Option.some.inj means).symm

theorem cutEnd_sublist (characters : List Char) : (cutEnd characters).1.Sublist characters := by
  unfold cutEnd
  split
  · exact List.dropLast_sublist characters
  · exact List.Sublist.refl characters

theorem cutStart_sublist (characters : List Char) :
    (cutStart characters).1.Sublist characters := by
  unfold cutStart
  split
  · exact List.sublist_cons_self _ _
  · exact List.Sublist.refl characters

theorem trimList_sublist (characters : List Char) :
    (Text.trimList characters).Sublist characters := by
  have front : (characters.dropWhile Text.isBlank).Sublist characters :=
    (List.dropWhile_suffix _).sublist
  exact (List.rdropWhile_prefix _ _).sublist.trans front

theorem unbracketed_of_ofPattern?
    (means : ofPattern? pattern negated = some rule) (unbracketed : '[' ∉ pattern.toList) :
    '[' ∉ rule.pattern.toList := by
  have kept : (comparedText pattern).Sublist pattern.toList :=
    (cutStart_sublist _).trans ((cutEnd_sublist _).trans (trimList_sublist _))
  rw [eq_of_ofPattern? means, String.toList_ofList]
  exact fun bracket => unbracketed (kept.subset bracket)

/-- A slash before the last character makes a rule about whole paths. -/
theorem comparesWhole_of_ofPattern?
    (means : ofPattern? pattern negated = some rule)
    (slashed : '/' ∈ (Text.trimList pattern.toList).dropLast) :
    (rule.anchored || rule.hasSlash) = true := by
  have kept : '/' ∈ (cutEnd (Text.trimList pattern.toList)).1 := by
    unfold cutEnd
    split
    · exact slashed
    · exact List.dropLast_subset _ slashed
  rw [eq_of_ofPattern? means, Bool.or_eq_true]
  dsimp only
  unfold comparedText cutStart
  split
  · exact Or.inl rfl
  · exact Or.inr (List.contains_iff_mem.mpr kept)

theorem covers_iff_of_comparesWhole
    (whole : (rule.anchored || rule.hasSlash) = true)
    (unbracketed : '[' ∉ rule.pattern.toList) {path : String} {isDirectory : Bool} :
    rule.covers path isDirectory = true ↔
      rule.pattern ≠ "" ∧ (rule.directoryOnly = true → isDirectory = true) ∧
        ((∃ parts, Glob.Spreads rule.pattern path parts) ∨
          (rule.directoryOnly = true ∧
            Text.beginsWith path (rule.pattern ++ "/") = true)) := by
  rw [← Glob.matchesText_iff_spreads unbracketed]
  unfold covers
  rw [if_pos whole]
  by_cases empty : rule.pattern = ""
  · simp [empty]
  · cases rule.directoryOnly <;> cases isDirectory <;> simp [empty]

/-- What a rule about whole paths covers has at least as many pieces as its pattern,
and as many only if they match one by one. -/
theorem piecewise_of_covers
    (whole : (rule.anchored || rule.hasSlash) = true)
    (unbracketed : '[' ∉ rule.pattern.toList) {path : String} {isDirectory : Bool}
    (covered : rule.covers path isDirectory = true) :
    (pieces rule.pattern).length ≤ (pieces path).length ∧
      (Glob.MatchesPiecewise rule.pattern path ↔
        (pieces path).length = (pieces rule.pattern).length) := by
  obtain ⟨_, _, ⟨parts, spreads⟩ | ⟨_, below⟩⟩ :=
    (covers_iff_of_comparesWhole whole unbracketed).mp covered
  · exact ⟨spreads.length_le, spreads.matchesPiecewise_iff⟩
  · obtain ⟨rest, shape⟩ := Text.beginsWith_iff.mp below
    have split : path = rule.pattern ++ "/" ++ String.ofList rest := by
      rw [← String.toList_inj, shape]
      simp
    have more : (pieces rule.pattern).length < (pieces path).length := by
      have own := Path.one_le_length_pieces (String.ofList rest)
      rw [split, Path.pieces_append_slash, List.length_append]
      omega
    refine ⟨Nat.le_of_lt more, ?_⟩
    constructor
    · intro piecewise
      exact piecewise.length_eq.symm
    · intro same
      exact absurd same (Nat.ne_of_gt more)

theorem covers_deepened
    (whole : (rule.anchored || rule.hasSlash) = true)
    (unbracketed : '[' ∉ rule.pattern.toList) (starred : '*' ∈ rule.pattern.toList)
    {isDirectory : Bool} (suited : rule.directoryOnly = true → isDirectory = true) :
    rule.covers (Glob.deepened rule.pattern) isDirectory = true := by
  rw [covers_iff_of_comparesWhole whole unbracketed, ← Glob.matchesText_iff_spreads unbracketed]
  have nonempty : rule.pattern ≠ "" := by
    intro empty
    simp [empty] at starred
  exact ⟨nonempty, suited, Or.inl (Glob.matchesText_deepened unbracketed)⟩

theorem not_matchesPiecewise_deepened (starred : '*' ∈ rule.pattern.toList) :
    ¬Glob.MatchesPiecewise rule.pattern (Glob.deepened rule.pattern) := by
  intro piecewise
  have same := piecewise.length_eq
  have stars := List.count_pos_iff.mpr starred
  rw [Glob.length_pieces_deepened] at same
  omega

end Rule

/-- A pattern without brackets that has a slash before its end covers a path if its
pieces spread over the path, each over one or more pieces of it; a pattern for
directories also covers all directories whose paths go on behind its text.  So the
pieces match one by one exactly where the path has as many as the pattern, and a
pattern with a star always covers paths that have more. -/
theorem wildcards_cross_slashes_iff
    {pattern : String} {negated : Bool} {rule : Rule}
    (means : Rule.ofPattern? pattern negated = some rule)
    (slashed : '/' ∈ (Text.trimList pattern.toList).dropLast)
    (unbracketed : '[' ∉ pattern.toList) :
    (∀ path isDirectory,
      (rule.covers path isDirectory = true ↔
        rule.pattern ≠ "" ∧ (rule.directoryOnly = true → isDirectory = true) ∧
          ((∃ parts, Glob.Spreads rule.pattern path parts) ∨
            (rule.directoryOnly = true ∧
              Text.beginsWith path (rule.pattern ++ "/") = true))) ∧
      (rule.covers path isDirectory = true →
        (pieces rule.pattern).length ≤ (pieces path).length ∧
          (Glob.MatchesPiecewise rule.pattern path ↔
            (pieces path).length = (pieces rule.pattern).length))) ∧
    ('*' ∈ rule.pattern.toList → (∀ piece ∈ pieces rule.pattern, IsStep piece) →
      ∃ path, (∀ piece ∈ pieces path, IsStep piece) ∧
        (∀ isDirectory, (rule.directoryOnly = true → isDirectory = true) →
          rule.covers path isDirectory = true) ∧
        ¬Glob.MatchesPiecewise rule.pattern path) := by
  have whole := Rule.comparesWhole_of_ofPattern? means slashed
  have plain := Rule.unbracketed_of_ofPattern? means unbracketed
  refine ⟨?_, ?_⟩
  · intro path isDirectory
    exact ⟨Rule.covers_iff_of_comparesWhole whole plain, Rule.piecewise_of_covers whole plain⟩
  · intro starred steps
    refine ⟨Glob.deepened rule.pattern, Glob.isStep_of_mem_deepened steps, ?_,
      Rule.not_matchesPiecewise_deepened starred⟩
    intro isDirectory suited
    exact Rule.covers_deepened whole plain starred suited

theorem wildcards_cross_slashes_deepSource :
    ∃ rule, Rule.ofPattern? "src/*.js" false = some rule ∧
      rule.covers "src/lib/deep.js" false = true ∧
      ¬Glob.MatchesPiecewise rule.pattern "src/lib/deep.js" := by
  have means :
      Rule.ofPattern? "src/*.js" false = some ⟨"src/*.js", false, false, false, true⟩ := by
    decide
  have reach := (wildcards_cross_slashes_iff means (by decide) (by decide)).1 "src/lib/deep.js" false
  have covered :
      Rule.covers ⟨"src/*.js", false, false, false, true⟩ "src/lib/deep.js" false = true := by
    decide +kernel
  refine ⟨_, means, covered, ?_⟩
  rw [(reach.2 covered).2]
  decide

end Ignore

end ModuleAtlas
