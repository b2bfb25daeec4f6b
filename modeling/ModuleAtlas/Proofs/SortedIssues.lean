import ModuleAtlas.Project.Issue
import ModuleAtlas.Proofs.GroupedLists

/-!
# Sorted issues

Sorting problems by severity and by kind neither loses nor invents one, and
what the checks of a project find is all of a severity that is reported.
-/

namespace ModuleAtlas

/-! ## Severities -/

namespace Severity

/-- How far a severity is from the worst. -/
def rank : Severity → Nat
  | .critical => 0
  | .high => 1
  | .medium => 2
  | .low => 3
  | .other _ _ => 4

theorem rank_lt_iff (severity : Severity) :
    severity.rank < 4 ↔ severity.name ∈ severityWords := by
  cases severity with
  | critical => decide
  | high => decide
  | medium => decide
  | low => decide
  | other name unknown => simp [rank, Severity.name, unknown]

theorem ofName_name (severity : Severity) : ofName severity.name = severity := by
  cases severity with
  | critical => rfl
  | high => rfl
  | medium => rfl
  | low => rfl
  | other name unknown =>
      simp only [severityWords, List.mem_cons, List.not_mem_nil, or_false, not_or] at unknown
      simp [Severity.name, ofName, unknown]

/-- A severity is told by its word. -/
theorem name_inj {left right : Severity} : left.name = right.name ↔ left = right := by
  constructor
  · intro same
    rw [← ofName_name left, ← ofName_name right, same]
  · exact congrArg name

/-- Only a severity of the lowest rank is not told by its rank. -/
theorem rank_inj {left right : Severity} (known : right.rank < 4) :
    left.rank = right.rank ↔ left = right := by
  constructor
  · intro same
    cases right with
    | other name unknown => exact absurd known (Nat.lt_irrefl 4)
    | critical => cases left <;> simp_all [rank]
    | high => cases left <;> simp_all [rank]
    | medium => cases left <;> simp_all [rank]
    | low => cases left <;> simp_all [rank]
  · exact congrArg rank

end Severity

/-! ## Sorting -/

/-- Problems are sorted by severity and by kind, each group in their order and
the kinds in the order in which they first come. -/
structure SortedIssues.Sorts (sorted : SortedIssues) (issues : List Issue) : Prop where
  critical : sorted.critical = issues.filter fun issue => issue.severity.name == "critical"
  high : sorted.high = issues.filter fun issue => issue.severity.name == "high"
  medium : sorted.medium = issues.filter fun issue => issue.severity.name == "medium"
  low : sorted.low = issues.filter fun issue => issue.severity.name == "low"
  /-- All together are a stable sort of the problems of a known severity. -/
  all :
    sorted.all =
      (issues.filter fun issue => decide (issue.severity.name ∈ severityWords)).mergeSort
        fun left right => decide (left.severity.rank ≤ right.severity.rank)
  kinds : sorted.byKind.map (·.1) = (issues.map fun issue => issue.kind.name).eraseDups
  ofKind :
    ∀ group ∈ sorted.byKind, group.2 = issues.filter fun issue => issue.kind.name == group.1
  partition : (sorted.byKind.flatMap (·.2)).Perm issues

namespace SortedIssues

theorem withSeverity_eq_filter_name (severity : Severity) (issues : List Issue) :
    withSeverity severity issues =
      issues.filter fun issue => issue.severity.name == severity.name := by
  apply List.filter_congr
  intro issue _
  rw [Bool.eq_iff_iff, beq_iff_eq, beq_iff_eq, Severity.name_inj]

theorem withSeverity_eq_filter_rank
    {severity : Severity} (known : severity.rank < 4) (issues : List Issue) :
    withSeverity severity issues =
      issues.filter fun issue => issue.severity.rank == severity.rank := by
  apply List.filter_congr
  intro issue _
  rw [Bool.eq_iff_iff, beq_iff_eq, beq_iff_eq, Severity.rank_inj known]

theorem all_ofList (issues : List Issue) :
    (ofList issues).all =
      (issues.filter fun issue => decide (issue.severity.name ∈ severityWords)).mergeSort
        fun left right => decide (left.severity.rank ≤ right.severity.rank) := by
  have levels :
      (ofList issues).all =
        (List.range 4).flatMap fun level =>
          issues.filter fun issue => issue.severity.rank == level := by
    simp only [all, ofList, @withSeverity_eq_filter_rank .critical (by decide),
      @withSeverity_eq_filter_rank .high (by decide),
      @withSeverity_eq_filter_rank .medium (by decide),
      @withSeverity_eq_filter_rank .low (by decide)]
    simp [List.range_succ, Severity.rank]
  have known :
      (issues.filter fun issue => decide (issue.severity.rank < 4)) =
        issues.filter fun issue => decide (issue.severity.name ∈ severityWords) := by
    simp only [Severity.rank_lt_iff]
  rw [levels, flatMap_range_filter_rank (fun issue : Issue => issue.severity.rank), known]

theorem byKind_ofList (issues : List Issue) :
    (ofList issues).byKind = groupsBy (fun issue => issue.kind.name) issues :=
  foldl_putField_eq_groupsBy (fun issue : Issue => issue.kind.name) issues

theorem sorts_ofList (issues : List Issue) : (ofList issues).Sorts issues where
  critical := withSeverity_eq_filter_name .critical issues
  high := withSeverity_eq_filter_name .high issues
  medium := withSeverity_eq_filter_name .medium issues
  low := withSeverity_eq_filter_name .low issues
  all := all_ofList issues
  kinds := by
    rw [byKind_ofList, keys_groupsBy]
  ofKind := by
    intro group member
    rw [byKind_ofList] at member
    obtain ⟨name, _, rfl⟩ := List.mem_map.mp member
    rfl
  partition := by
    rw [byKind_ofList]
    exact flatMap_groupsBy_perm _ issues

end SortedIssues

/-! ## Detection -/

namespace Issue

variable {table : Table} {manifest : Option Manifest} {patterns : Graph.Patterns}
  {unreadable : List String} {issue : Issue}

/-- What a problem of a project may be found at. -/
inductive IsPlace (table : Table) (patterns : Graph.Patterns) (unreadable : List String) :
    String → Prop
  | file {path : String} : path ∈ table.paths → IsPlace table patterns unreadable path
  | cycle {first : String} {cycle : Graph.Cycle} :
      cycle ∈ patterns.cycles → cycle.files.head? = some first →
        IsPlace table patterns unreadable first
  | directory {path : String} : path ∈ unreadable → IsPlace table patterns unreadable path
  | manifest : IsPlace table patterns unreadable "package.json"
  | root : IsPlace table patterns unreadable "project-root"

/-- A problem as the checks of a project find them. -/
structure IsDetectable (table : Table) (patterns : Graph.Patterns) (unreadable : List String)
    (issue : Issue) : Prop where
  severity : issue.severity ∈ [Severity.high, .medium, .low]
  place : IsPlace table patterns unreadable issue.file

theorem isDetectable_of_mem_missingDependencies
    (member : issue ∈ missingDependencies table manifest) :
    IsDetectable table patterns unreadable issue := by
  obtain ⟨name, _, rfl⟩ := List.mem_map.mp member
  exact ⟨List.mem_cons_self, .manifest⟩

theorem isDetectable_of_mem_missingScripts
    (member : issue ∈ missingScripts manifest) :
    IsDetectable table patterns unreadable issue := by
  have possible : issue = missingStart ∨ issue = missingTest := by
    simp only [missingScripts, List.mem_append] at member
    grind
  rcases possible with rfl | rfl
  · exact ⟨by simp [missingStart], .manifest⟩
  · exact ⟨by simp [missingTest], .manifest⟩

theorem isDetectable_of_mem_circularDependencies
    (member : issue ∈ circularDependencies patterns) :
    IsDetectable table patterns unreadable issue := by
  obtain ⟨cycle, cycleMember, reported⟩ := List.mem_filterMap.mp member
  unfold ofCycle? at reported
  split at reported
  · next first second rest shape =>
    cases reported
    exact ⟨List.mem_cons_self, .cycle cycleMember (by rw [shape]; rfl)⟩
  · cases reported

theorem isDetectable_of_mem_structural
    (member : issue ∈ structural table) :
    IsDetectable table patterns unreadable issue := by
  have possible : issue = missingEntryPoint ∨ issue = noSourceDirectory := by
    simp only [structural, List.mem_append] at member
    grind
  rcases possible with rfl | rfl
  · exact ⟨by simp [missingEntryPoint], .root⟩
  · exact ⟨by simp [noSourceDirectory], .root⟩

theorem isDetectable_of_mem_antiPatterns
    {path : String} {entry : Entry} (listed : (path, entry) ∈ table.entries)
    (member : issue ∈ antiPatterns path entry) :
    IsDetectable table patterns unreadable issue := by
  have known : path ∈ table.paths := List.mem_map_of_mem listed
  simp only [antiPatterns, List.mem_append, List.mem_ite_nil_right,
    List.mem_singleton] at member
  rcases member with (⟨_, rfl⟩ | ⟨_, rfl⟩) | ⟨_, rfl⟩
  · exact ⟨by simp, .file known⟩
  · exact ⟨by simp, .file known⟩
  · exact ⟨by simp, .file known⟩

theorem isDetectable_of_mem_unreadable
    (member : issue ∈ unreadable.map unreadableDirectory) :
    IsDetectable table patterns unreadable issue := by
  obtain ⟨directory, listed, rfl⟩ := List.mem_map.mp member
  exact ⟨by simp [unreadableDirectory], .directory listed⟩

theorem isDetectable_of_mem_detect
    (member : issue ∈ detect table manifest patterns unreadable) :
    IsDetectable table patterns unreadable issue := by
  simp only [detect, List.mem_append] at member
  rcases member with ((((imports | scripts) | cycles) | layout) | files) | directories
  · exact isDetectable_of_mem_missingDependencies imports
  · exact isDetectable_of_mem_missingScripts scripts
  · exact isDetectable_of_mem_circularDependencies cycles
  · exact isDetectable_of_mem_structural layout
  · obtain ⟨file, listed, found⟩ := List.mem_flatMap.mp files
    exact isDetectable_of_mem_antiPatterns listed found
  · exact isDetectable_of_mem_unreadable directories

/-- Nothing that is detected is critical. -/
theorem critical_ofList_detect
    (table : Table) (manifest : Option Manifest) (patterns : Graph.Patterns)
    (unreadable : List String) :
    (SortedIssues.ofList (detect table manifest patterns unreadable)).critical = [] := by
  show SortedIssues.withSeverity .critical _ = []
  rw [SortedIssues.withSeverity, List.filter_eq_nil_iff]
  intro issue member critical
  have found := (isDetectable_of_mem_detect member).severity
  rw [beq_iff_eq.mp critical] at found
  exact absurd found (by decide)

theorem all_ofList_detect_perm
    (table : Table) (manifest : Option Manifest) (patterns : Graph.Patterns)
    (unreadable : List String) :
    (SortedIssues.ofList (detect table manifest patterns unreadable)).all.Perm
      (detect table manifest patterns unreadable) := by
  have told : ∀ severity ∈ [Severity.high, .medium, .low], severity.name ∈ severityWords := by
    decide
  have known :
      ((detect table manifest patterns unreadable).filter fun issue =>
          decide (issue.severity.name ∈ severityWords)) =
        detect table manifest patterns unreadable := by
    rw [List.filter_eq_self]
    intro issue member
    exact decide_eq_true (told _ (isDetectable_of_mem_detect member).severity)
  rw [SortedIssues.all_ofList, known]
  exact List.mergeSort_perm _ _

end Issue

/-- Whatever the problems, sorting them keeps all of a known severity and each
of their groups in order; and whatever the project, all that is detected is of
a known severity other than the worst, is told in the report, and is found at a
file, a cycle, a directory, the manifest or the root. -/
theorem issues_sorted_and_detected :
    (∀ issues : List Issue, (SortedIssues.ofList issues).Sorts issues) ∧
    ∀ (table : Table) (manifest : Option Manifest) (patterns : Graph.Patterns)
      (unreadable : List String),
      (∀ issue ∈ Issue.detect table manifest patterns unreadable,
        Issue.IsDetectable table patterns unreadable issue) ∧
      (SortedIssues.ofList (Issue.detect table manifest patterns unreadable)).critical = [] ∧
      (SortedIssues.ofList (Issue.detect table manifest patterns unreadable)).all.Perm
        (Issue.detect table manifest patterns unreadable) := by
  refine ⟨SortedIssues.sorts_ofList, ?_⟩
  intro table manifest patterns unreadable
  have detected :
      ∀ issue ∈ Issue.detect table manifest patterns unreadable,
        Issue.IsDetectable table patterns unreadable issue :=
    fun _ => Issue.isDetectable_of_mem_detect
  have noneCritical := Issue.critical_ofList_detect table manifest patterns unreadable
  have noneLost := Issue.all_ofList_detect_perm table manifest patterns unreadable
  exact ⟨detected, noneCritical, noneLost⟩

end ModuleAtlas
