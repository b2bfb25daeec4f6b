import ModuleAtlas.Survey.Basic

/-!
# Precedence of rules

Of the rules that cover a path the last one decides.  In a text of rules it is
that of the last line that covers the path, and only lines with an exclamation
mark take paths back in.  The rules of configured patterns come behind those of
the text and take nothing back in: what one of them covers stays out whatever the
text says, and about all other paths the text decides alone.
-/

namespace ModuleAtlas

namespace Ignore

/-! ## The last rule -/

section

variable {rules others : List Rule} {path : String} {isDirectory : Bool}

/-- The last of the rules that cover a path. -/
def lastCovering? (rules : List Rule) (path : String) (isDirectory : Bool) : Option Rule :=
  rules.reverse.find? (·.covers path isDirectory)

theorem lastCovering?_cons (rule : Rule) (rules : List Rule) :
    lastCovering? (rule :: rules) path isDirectory =
      (lastCovering? rules path isDirectory).or
        (if rule.covers path isDirectory then some rule else none) := by
  rw [lastCovering?, List.reverse_cons, List.find?_append, List.find?_singleton]
  rfl

theorem lastCovering?_append (rules others : List Rule) :
    lastCovering? (rules ++ others) path isDirectory =
      (lastCovering? others path isDirectory).or (lastCovering? rules path isDirectory) := by
  rw [lastCovering?, List.reverse_append, List.find?_append]
  rfl

theorem of_lastCovering?_eq_some
    {rule : Rule} (last : lastCovering? rules path isDirectory = some rule) :
    rule ∈ rules ∧ rule.covers path isDirectory = true := by
  have member := List.mem_reverse.mp (List.mem_of_find?_eq_some last)
  have covered :=
    @List.find?_some _ (fun rule : Rule => rule.covers path isDirectory) _ _ last
  exact ⟨member, covered⟩

/-- The verdict is that of the last rule that covers the path; without such a rule it
stays what it was. -/
theorem foldl_covers_eq (rules : List Rule) (start : Bool) :
    rules.foldl
        (fun excluded rule => if rule.covers path isDirectory then !rule.negated else excluded)
        start =
      ((lastCovering? rules path isDirectory).map fun rule => !rule.negated).getD start := by
  induction rules generalizing start with
  | nil =>
      rfl
  | cons rule rest inductionHypothesis =>
      rw [List.foldl_cons, inductionHypothesis, lastCovering?_cons]
      cases lastCovering? rest path isDirectory with
      | some last => rfl
      | none => cases rule.covers path isDirectory <;> rfl

theorem excludes_eq (rules : List Rule) :
    excludes rules path isDirectory =
      ((lastCovering? rules path isDirectory).map fun rule => !rule.negated).getD false :=
  foldl_covers_eq rules false

/-- Rules that take nothing back in leave out what they cover, and leave all else to
the rules before them. -/
theorem excludes_append_of_not_negated
    (rules : List Rule) (plain : ∀ rule ∈ others, rule.negated = false) :
    excludes (rules ++ others) path isDirectory =
      (others.any (·.covers path isDirectory) || excludes rules path isDirectory) := by
  rw [excludes_eq, excludes_eq, lastCovering?_append]
  cases last : lastCovering? others path isDirectory with
  | some rule =>
      obtain ⟨member, covered⟩ := of_lastCovering?_eq_some last
      have someCovers : others.any (·.covers path isDirectory) = true :=
        List.any_eq_true.mpr ⟨rule, member, covered⟩
      simp [someCovers, plain rule member]
  | none =>
      have noneCovers : others.any (·.covers path isDirectory) = false := by
        rw [List.any_eq_false]
        intro rule member
        exact List.find?_eq_none.mp last rule (List.mem_reverse.mpr member)
      rw [noneCovers, Option.none_or, Bool.false_or]

end

/-! ## Rules of patterns and lines -/

namespace Rule

theorem negated_of_ofPattern?
    {pattern : String} {negated : Bool} {rule : Rule}
    (means : ofPattern? pattern negated = some rule) : rule.negated = negated := by
  unfold ofPattern? at means
  dsimp only at means
  split at means
  · cases means
  · cases means
    rfl

theorem negated_of_mem_ofPatterns
    {patterns : List String} {rule : Rule} (member : rule ∈ ofPatterns patterns) :
    rule.negated = false := by
  obtain ⟨pattern, _, means⟩ := List.mem_filterMap.mp member
  exact negated_of_ofPattern? means

/-- An exclamation mark at the start of a configured pattern is a character like any
other. -/
theorem exclamation_of_ofPattern?
    {pattern : String} {negated : Bool} {rule : Rule}
    (marked : (Text.trimList pattern.toList).head? = some '!')
    (means : ofPattern? pattern negated = some rule) :
    rule.pattern.toList.head? = some '!' := by
  obtain ⟨rest, shape⟩ := List.head?_eq_some_iff.mp marked
  have kept : ∃ more, (cutEnd ('!' :: rest)).1 = '!' :: more := by
    unfold cutEnd
    split
    · next ends =>
        cases rest with
        | nil => exact absurd ends (by decide)
        | cons second others => exact ⟨_, rfl⟩
    · exact ⟨rest, rfl⟩
  obtain ⟨more, kept⟩ := kept
  unfold ofPattern? at means
  simp only [shape, List.isEmpty_cons, Bool.false_eq_true, if_false, kept] at means
  cases means
  rw [String.toList_ofList]
  rfl

/-- A line takes paths back in: blanks aside, it begins with an exclamation mark. -/
def takesBackIn (line : String) : Bool :=
  (Text.trimList line.toList).head? == some '!'

/-- A line has a rule that covers a path. -/
def lineCovers (path : String) (isDirectory : Bool) (line : String) : Bool :=
  (ofLine? line).any (·.covers path isDirectory)

theorem negated_of_ofLine?
    {line : String} {rule : Rule} (means : ofLine? line = some rule) :
    rule.negated = takesBackIn line := by
  unfold ofLine? at means
  unfold takesBackIn
  split at means
  · cases means
  · cases means
  · next rest shape =>
      rw [negated_of_ofPattern? means, shape]
      rfl
  · next notComment notMarked =>
      rw [negated_of_ofPattern? means, eq_comm, beq_eq_false_iff_ne]
      intro marked
      obtain ⟨rest, shape⟩ := List.head?_eq_some_iff.mp marked
      exact notMarked rest shape

end Rule

/-- Of a text the last line that covers a path decides. -/
theorem excludes_ofText (text path : String) (isDirectory : Bool) :
    excludes (Rule.ofText text) path isDirectory =
      match (Text.lines text).reverse.find? (Rule.lineCovers path isDirectory) with
      | some line => !Rule.takesBackIn line
      | none => false := by
  have found :
      lastCovering? (Rule.ofText text) path isDirectory =
        ((Text.lines text).reverse.find? (Rule.lineCovers path isDirectory)).bind
          Rule.ofLine? := by
    rw [lastCovering?, Rule.ofText, ← List.filterMap_reverse, List.find?_filterMap]
    rfl
  rw [excludes_eq, found]
  cases last : (Text.lines text).reverse.find? (Rule.lineCovers path isDirectory) with
  | none =>
      rfl
  | some line =>
      have covered : Rule.lineCovers path isDirectory line = true := List.find?_some last
      obtain ⟨rule, means, _⟩ := (Option.any_eq_true _ _).mp covered
      rw [Option.bind_some, means, Option.map_some, Option.getD_some,
        Rule.negated_of_ofLine? means]

end Ignore

/-! ## Rules of a survey -/

namespace Survey

/-- The patterns that a survey leaves out: those that the caller wishes, or else those
of the settings. -/
def patternsOf (wishes : Wishes) (settings : Option Settings) : List String :=
  (wishes.excluded.or (settings.map (·.excluded))).getD []

/-- The text of rules that a survey respects; empty if there is none to respect. -/
def respectedText
    (disk : Disk.Item) (root : String) (wishes : Wishes) (settings : Option Settings) : String :=
  if (wishes.respectsIgnoreFile.or (settings.map (·.scan.respectsIgnoreFile))).getD true then
    match Disk.read disk (Path.join root ignoreFileName) with
    | .ok octets => ((Text.Utf8.decode octets).toOption).getD ""
    | .error _ => ""
  else ""

/-- The rules of a survey are those of a text, and behind them those of patterns. -/
theorem rulesOf_eq
    (disk : Disk.Item) (root : String) (wishes : Wishes) (settings : Option Settings) :
    rulesOf disk root wishes settings =
      Ignore.Rule.ofText (respectedText disk root wishes settings) ++
        Ignore.Rule.ofPatterns (patternsOf wishes settings) := by
  unfold rulesOf respectedText patternsOf
  dsimp only
  congr 1
  split
  · unfold ignoreFileRules
    cases Disk.read disk (Path.join root ignoreFileName) with
    | error trouble => rfl
    | ok octets =>
        dsimp only
        unfold Ignore.Rule.ofOctets
        cases Text.Utf8.decode octets with
        | ok text => rfl
        | error fault => rfl
  · rfl

theorem excludes_rulesOf
    (disk : Disk.Item) (root : String) (wishes : Wishes) (settings : Option Settings)
    (path : String) (isDirectory : Bool) :
    Ignore.excludes (rulesOf disk root wishes settings) path isDirectory =
      ((Ignore.Rule.ofPatterns (patternsOf wishes settings)).any (·.covers path isDirectory) ||
        Ignore.excludes (Ignore.Rule.ofText (respectedText disk root wishes settings)) path
          isDirectory) := by
  rw [rulesOf_eq, Ignore.excludes_append_of_not_negated]
  exact fun _ => Ignore.Rule.negated_of_mem_ofPatterns

/-- A search neither enters nor lists what its rules leave out. -/
theorem Guide.passes_over
    {guide : Guide} {path : String} {isDirectory : Bool}
    (excluded : Ignore.excludes guide.rules path isDirectory = true) (name : String) :
    if isDirectory then guide.enters path name = false else guide.source? path name = none := by
  cases isDirectory with
  | true => simp [Guide.enters, excluded]
  | false => simp [Guide.source?, excluded]

end Survey

namespace Ignore

/-- Whatever the text of rules and the configured patterns, a path that a configured
rule covers is left out, and about any other the text decides alone: by its last
line that covers the path, if there is one.  An exclamation mark takes paths back in
on a line, but not in a pattern.  The rules of every survey are of this form, so its
search passes over all that a configured rule covers. -/
theorem configured_patterns_prevail
    (text : String) (patterns : List String) (path : String) (isDirectory : Bool) :
    excludes (Rule.ofText text ++ Rule.ofPatterns patterns) path isDirectory =
        ((Rule.ofPatterns patterns).any (·.covers path isDirectory) ||
          excludes (Rule.ofText text) path isDirectory) ∧
      (excludes (Rule.ofText text) path isDirectory =
        match (Text.lines text).reverse.find? (Rule.lineCovers path isDirectory) with
        | some line => !Rule.takesBackIn line
        | none => false) ∧
      (∀ pattern rule, Rule.ofPattern? pattern false = some rule →
        rule.negated = false ∧
          ((Text.trimList pattern.toList).head? = some '!' →
            rule.pattern.toList.head? = some '!')) ∧
      ∀ disk root wishes settings,
        Survey.rulesOf disk root wishes settings =
            Rule.ofText (Survey.respectedText disk root wishes settings) ++
              Rule.ofPatterns (Survey.patternsOf wishes settings) ∧
          ∀ (guide : Survey.Guide) (name : String),
            guide.rules = Survey.rulesOf disk root wishes settings →
            (∃ rule ∈ Rule.ofPatterns (Survey.patternsOf wishes settings),
              rule.covers path isDirectory = true) →
            if isDirectory then guide.enters path name = false
            else guide.source? path name = none := by
  refine ⟨excludes_append_of_not_negated _ fun _ => Rule.negated_of_mem_ofPatterns,
    excludes_ofText text path isDirectory, ?_, ?_⟩
  · intro pattern rule means
    exact ⟨Rule.negated_of_ofPattern? means,
      fun marked => Rule.exclamation_of_ofPattern? marked means⟩
  · intro disk root wishes settings
    refine ⟨Survey.rulesOf_eq disk root wishes settings, ?_⟩
    intro guide name guided covered
    apply Survey.Guide.passes_over
    rw [guided, Survey.excludes_rulesOf, List.any_eq_true.mpr covered, Bool.true_or]

end Ignore

end ModuleAtlas
