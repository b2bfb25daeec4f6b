import ModuleAtlas.Project.Issue
import ModuleAtlas.Proofs.GraphConstruction
import ModuleAtlas.Proofs.GraphCycles

/-!
# Circular dependencies

From the imports of the files of a table to the problems that are reported:
the graph, its patterns and the problems together report a circular dependency
exactly if the imports go in a circle.
-/

namespace ModuleAtlas

open Relation

variable {ε : Type}

/-- An import of a file with the identity `origin` means a file whose identity
`target` is that of a file of the table. -/
def ImportsInto (isFile : String → Except ε Bool) (table : Table)
    (origin target : String) : Prop :=
  ∃ importer ∈ table.entries, ∃ reference ∈ importer.2.imports, ∃ file,
    Resolution.resolve isFile reference.source importer.1 = .ok (some file) ∧
      (∃ known ∈ table.entries, nodeId known.1 = nodeId file) ∧
      nodeId importer.1 = origin ∧ nodeId file = target

/-- The edges of a graph that was built lead where the imports lead. -/
theorem links_of_build
    {isFile : String → Except ε Bool} {table : Table} {graph : Graph}
    (built : Graph.build (Resolution.resolve isFile) table = .ok graph) :
    Graph.Links graph = ImportsInto isFile table := by
  funext origin target
  apply propext
  constructor
  · intro given
    obtain ⟨edge, member, rfl, rfl⟩ := given
    obtain ⟨importer, importerMember, reference, referenceMember, file,
      resolved, known, rfl⟩ := (Graph.mem_edges_of_build built).mp member
    exact ⟨importer, importerMember, reference, referenceMember, file,
      resolved, known, rfl, rfl⟩
  · rintro ⟨importer, importerMember, reference, referenceMember, file,
      resolved, known, rfl, rfl⟩
    refine ⟨⟨nodeId importer.1, nodeId file, reference.source, "import"⟩, ?_, rfl, rfl⟩
    exact (Graph.mem_edges_of_build built).mpr
      ⟨importer, importerMember, reference, referenceMember, file,
        resolved, known, rfl⟩

namespace Issue

/-- Whether a problem is reported as a circular dependency. -/
def isCircular (issue : Issue) : Bool :=
  issue.kind.name == "circular-dependency"

theorem isCircular_of_mem_circularDependencies
    {patterns : Graph.Patterns} {issue : Issue}
    (member : issue ∈ circularDependencies patterns) :
    issue.isCircular = true := by
  obtain ⟨cycle, _, reported⟩ := List.mem_filterMap.mp member
  unfold ofCycle? at reported
  split at reported
  · cases reported
    rfl
  · cases reported

/-- The kinds of problems that the checks other than that of the cycles
report. -/
def otherKinds : List IssueKind :=
  [.missingDependency, .missingScript, .missingEntryPoint, .noSourceDirectory,
    .tooManyImports, .misplacedRoutes, .unexportedModel, .unreadableDirectory]

theorem kind_of_mem_missingDependencies
    {table : Table} {manifest : Option Manifest} {issue : Issue}
    (member : issue ∈ missingDependencies table manifest) :
    issue.kind ∈ otherKinds := by
  obtain ⟨name, _, rfl⟩ := List.mem_map.mp member
  simp [missingDependency, otherKinds]

theorem kind_of_mem_missingScripts
    {manifest : Option Manifest} {issue : Issue}
    (member : issue ∈ missingScripts manifest) :
    issue.kind ∈ otherKinds := by
  have possible : issue = missingStart ∨ issue = missingTest := by
    simp only [missingScripts, List.mem_append] at member
    grind
  rcases possible with rfl | rfl
  · simp [missingStart, otherKinds]
  · simp [missingTest, otherKinds]

theorem kind_of_mem_structural
    {table : Table} {issue : Issue} (member : issue ∈ structural table) :
    issue.kind ∈ otherKinds := by
  have possible : issue = missingEntryPoint ∨ issue = noSourceDirectory := by
    simp only [structural, List.mem_append] at member
    grind
  rcases possible with rfl | rfl
  · simp [missingEntryPoint, otherKinds]
  · simp [noSourceDirectory, otherKinds]

theorem kind_of_mem_antiPatterns
    {path : String} {entry : Entry} {issue : Issue}
    (member : issue ∈ antiPatterns path entry) :
    issue.kind ∈ otherKinds := by
  simp only [antiPatterns, List.mem_append, List.mem_ite_nil_right,
    List.mem_singleton] at member
  rcases member with (⟨_, rfl⟩ | ⟨_, rfl⟩) | ⟨_, rfl⟩
  · simp [otherKinds]
  · simp [otherKinds]
  · simp [otherKinds]

theorem kind_of_mem_unreadable
    {unreadable : List String} {issue : Issue}
    (member : issue ∈ unreadable.map unreadableDirectory) :
    issue.kind ∈ otherKinds := by
  obtain ⟨directory, _, rfl⟩ := List.mem_map.mp member
  simp [unreadableDirectory, otherKinds]

/-- Problems of other kinds are no circular dependencies. -/
theorem filter_isCircular_eq_nil
    {issues : List Issue}
    (kinds : ∀ issue ∈ issues, issue.kind ∈ otherKinds) :
    issues.filter isCircular = [] := by
  have named : ∀ kind ∈ otherKinds, kind.name ≠ "circular-dependency" := by
    decide
  rw [List.filter_eq_nil_iff]
  intro issue member circular
  exact named issue.kind (kinds issue member) (by simpa [isCircular] using circular)

/-- No check but that of the cycles reports a circular dependency. -/
theorem filter_isCircular_detect
    (table : Table) (manifest : Option Manifest) (patterns : Graph.Patterns)
    (unreadable : List String) :
    (detect table manifest patterns unreadable).filter isCircular =
      circularDependencies patterns := by
  have cycles : (circularDependencies patterns).filter isCircular =
      circularDependencies patterns := by
    rw [List.filter_eq_self]
    intro issue member
    exact isCircular_of_mem_circularDependencies member
  have files :
      ∀ issue ∈ table.entries.flatMap fun file => antiPatterns file.1 file.2,
        issue.kind ∈ otherKinds := by
    intro issue member
    obtain ⟨file, _, found⟩ := List.mem_flatMap.mp member
    exact kind_of_mem_antiPatterns found
  rw [detect, List.filter_append, List.filter_append, List.filter_append,
    List.filter_append, List.filter_append, cycles,
    filter_isCircular_eq_nil fun _ => kind_of_mem_missingDependencies,
    filter_isCircular_eq_nil fun _ => kind_of_mem_missingScripts,
    filter_isCircular_eq_nil fun _ => kind_of_mem_structural,
    filter_isCircular_eq_nil files,
    filter_isCircular_eq_nil fun _ => kind_of_mem_unreadable]
  simp

/-- Cycles over two files or more are all reported. -/
theorem length_circularDependencies
    {patterns : Graph.Patterns}
    (long : ∀ cycle ∈ patterns.cycles, 2 ≤ cycle.files.length) :
    (circularDependencies patterns).length = patterns.cycles.length := by
  unfold circularDependencies
  rw [List.length_filterMap_eq_countP, List.countP_eq_length]
  intro cycle member
  have twoFiles := long cycle member
  unfold ofCycle?
  split
  · rfl
  · next short =>
      match shape : cycle.files with
      | [] => simp [shape] at twoFiles
      | [file] => simp [shape] at twoFiles
      | first :: second :: rest => exact absurd shape (short first second rest)

end Issue

/-- The graph of a table can be built and its patterns can be told, unless
looking for a file fails. A circular dependency is then reported exactly if the
imports go in a circle, and there are as many such problems as cycles. -/
theorem circular_dependency_reported_iff
    (isFile : String → Except ε Bool) (table : Table)
    (manifest : Option Manifest) (unreadable : List String) :
    match Graph.build (Resolution.resolve isFile) table with
    | .error fault => ∃ path, isFile path = .error fault
    | .ok graph =>
        ∃ patterns, graph.patterns = .ok patterns ∧
          ((∃ issue ∈ Issue.detect table manifest patterns unreadable,
              issue.kind.name = "circular-dependency") ↔
            ∃ id, TransGen (ImportsInto isFile table) id id) ∧
          ((Issue.detect table manifest patterns unreadable).filter
              fun issue => issue.kind.name == "circular-dependency").length =
            patterns.cycles.length := by
  have spec := Graph.build_spec (Resolution.resolve isFile) table
  cases built : Graph.build (Resolution.resolve isFile) table with
  | error fault =>
      rw [built] at spec
      obtain ⟨_, _, _, _, failed⟩ := spec
      exact Resolution.resolve_error failed
  | ok graph =>
      have ends : Graph.EndsKnown graph := Graph.ends_mem_of_build built
      obtain ⟨cycles, told, long, reported⟩ := Graph.cycles_spec ends
      rw [links_of_build built] at reported
      let patterns : Graph.Patterns :=
        ⟨Graph.entryPoints graph, Graph.hubs graph Graph.hubThreshold,
          Graph.clusters graph, cycles⟩
      have circular := Issue.filter_isCircular_detect table manifest patterns unreadable
      have count :
          (Issue.circularDependencies patterns).length = patterns.cycles.length :=
        Issue.length_circularDependencies long
      refine ⟨patterns, by rw [Graph.patterns, told]; rfl, ?_, ?_⟩
      · rw [← reported]
        constructor
        · rintro ⟨issue, member, named⟩ empty
          have listed : issue ∈ Issue.circularDependencies patterns := by
            rw [← circular, List.mem_filter]
            exact ⟨member, by simpa [Issue.isCircular] using named⟩
          simp [Issue.circularDependencies, patterns, empty] at listed
        · intro nonempty
          have some : Issue.circularDependencies patterns ≠ [] := by
            rw [← List.length_pos_iff, count]
            exact List.length_pos_iff.mpr nonempty
          obtain ⟨issue, listed⟩ := List.exists_mem_of_ne_nil _ some
          rw [← circular, List.mem_filter] at listed
          exact ⟨issue, listed.1, by simpa [Issue.isCircular] using listed.2⟩
      · rw [← count, ← circular]
        rfl

end ModuleAtlas
