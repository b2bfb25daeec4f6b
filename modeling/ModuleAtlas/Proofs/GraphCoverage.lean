import Mathlib.Order.WellFoundedSet
import ModuleAtlas.Proofs.GraphContents

/-!
# Entry points and cycles cover a graph

Going back along the edges from a file one comes to a file that nothing
imports, or one goes in a circle.  The search need not report that very circle,
so the way back is taken along the edges that close no reported cycle.  These
edges go in no circle; where no more of them leads back, nothing leads back at
all, or the edge that does closes a reported cycle.
-/

namespace ModuleAtlas.Graph

open Relation

variable {ε : Type}

/-! ## The way back -/

/-- Along edges that go in no circle every node is reached from one that no
edge enters. -/
theorem reached_of_acyclic
    {edge : String → String → Prop} {nodes : List String}
    (acyclic : ∀ node, ¬ TransGen edge node node)
    (known : ∀ origin target, edge origin target → origin ∈ nodes) :
    ∀ node ∈ nodes, ∃ first ∈ nodes,
      (∀ origin, ¬ edge origin first) ∧ ReflTransGen edge first node := by
  have order : IsStrictOrder String (TransGen edge) :=
    { irrefl := acyclic
      trans := fun _ _ _ => TransGen.trans }
  have wellFounded : {node | node ∈ nodes}.WellFoundedOn (TransGen edge) :=
    (List.finite_toSet nodes).wellFoundedOn
  intro node member
  refine wellFounded.induction
    (P := fun node => ∃ first ∈ nodes,
      (∀ origin, ¬ edge origin first) ∧ ReflTransGen edge first node) member ?_
  intro node member inductionHypothesis
  by_cases entered : ∃ origin, edge origin node
  · obtain ⟨origin, step⟩ := entered
    obtain ⟨first, firstMember, unentered, reaches⟩ :=
      inductionHypothesis origin (known origin node step) (TransGen.single step)
    exact ⟨first, firstMember, unentered, reaches.tail step⟩
  · exact ⟨node, member, not_exists.mp entered, ReflTransGen.refl⟩

theorem Closes.target_mem
    {walks : List (List String)} {origin target : String}
    (closes : Closes walks origin target) :
    ∃ walk ∈ walks, target ∈ walk := by
  obtain ⟨walk, member, initial, shape⟩ := closes
  refine ⟨walk, member, ?_⟩
  rw [shape]
  simp

/-- Every node is reached from one that no edge enters or from one on a closed
walk. -/
theorem reached_of_closedWalks
    {graph : Graph} {walks : List (List String)} (ends : EndsKnown graph)
    (acyclic : ∀ node, ¬ TransGen (OpenEdge (Links graph) walks) node node) :
    ∀ id ∈ graph.ids, ∃ first ∈ graph.ids,
      ReflTransGen (Links graph) first id ∧
        ((∀ origin, ¬ Links graph origin first) ∨ ∃ walk ∈ walks, first ∈ walk) := by
  have known :
      ∀ origin target, OpenEdge (Links graph) walks origin target → origin ∈ graph.ids := by
    intro origin target edge
    exact (ends.of_links edge.1).1
  intro id member
  obtain ⟨first, firstMember, unentered, reaches⟩ := reached_of_acyclic acyclic known id member
  have alongLinks : ReflTransGen (Links graph) first id :=
    ReflTransGen.mono (fun _ _ edge => edge.1) first id reaches
  refine ⟨first, firstMember, alongLinks, ?_⟩
  by_cases entered : ∃ origin, Links graph origin first
  · obtain ⟨origin, link⟩ := entered
    -- The edge is not open, so it closes one of the walks.
    have closes : Closes walks origin first := by
      by_contra stillOpen
      exact unentered origin ⟨link, stillOpen⟩
    exact Or.inr closes.target_mem
  · exact Or.inl (not_exists.mp entered)

/-! ## Files that explain others -/

/-- Along edges the node is reached from that of the file. -/
def ReachedFrom (graph : Graph) (file id : String) : Prop :=
  ∃ origin ∈ graph.nodes, origin.path = file ∧ ReflTransGen (Links graph) origin.id id

theorem reachedFrom_entryPoint
    {graph : Graph} {first id : String} (known : first ∈ graph.ids)
    (unentered : ∀ origin, ¬ Links graph origin first)
    (reaches : ReflTransGen (Links graph) first id) :
    ∃ point ∈ entryPoints graph, ReachedFrom graph point.file id := by
  obtain ⟨node, member, rfl⟩ := List.mem_map.mp known
  have noTarget : (graph.edges.any fun edge => edge.target == node.id) = false := by
    rw [isEntered_eq_false_iff]
    intro edge edgeMember enters
    exact unentered edge.origin ⟨edge, edgeMember, rfl, enters⟩
  have kept :
      node ∈ graph.nodes.filter fun node =>
        !(graph.edges.any fun edge => edge.target == node.id) :=
    List.mem_filter.mpr ⟨member, by rw [noTarget]; rfl⟩
  exact ⟨_, List.mem_map.mpr ⟨node, kept, rfl⟩, node, member, rfl, reaches⟩

theorem reachedFrom_cycle
    {graph : Graph} {walk : List String} {first id : String}
    (known : first ∈ graph.ids) (onWalk : first ∈ walk)
    (reaches : ReflTransGen (Links graph) first id) :
    ∃ file ∈ (cycleOf graph walk).files, ReachedFrom graph file id := by
  obtain ⟨path, found⟩ := mem_keys_iff.mp (mem_keys_pathsOf.mpr known)
  obtain ⟨node, member, rfl, rfl⟩ := node_of_lookup_pathsOf found
  exact ⟨node.path, List.mem_filterMap.mpr ⟨node.id, onWalk, found⟩,
    node, member, rfl, reaches⟩

/-- In the graph of a table every file is reached from an entry point or from a
file of a cycle that is reported, unless an import cannot be resolved.  So a
graph with files has an entry point or a cycle. -/
theorem entry_points_and_cycles_cover
    (resolve : String → String → Except ε (Option String)) (table : Table) :
    match build resolve table with
    | .error fault =>
        ∃ file ∈ table.entries, ∃ reference ∈ file.2.imports,
          resolve reference.source file.1 = .error fault
    | .ok graph =>
        ∃ patterns, graph.patterns = .ok patterns ∧
          (∀ node ∈ graph.nodes,
            (∃ point ∈ patterns.entryPoints, ReachedFrom graph point.file node.id) ∨
              ∃ cycle ∈ patterns.cycles, ∃ file ∈ cycle.files,
                ReachedFrom graph file node.id) ∧
          (graph.nodes ≠ [] → patterns.cycles = [] → patterns.entryPoints ≠ []) := by
  have spec := build_spec resolve table
  cases built : build resolve table with
  | error fault =>
      rw [built] at spec
      exact spec
  | ok graph =>
      have ends : EndsKnown graph := ends_mem_of_build built
      obtain ⟨walks, searched, _, acyclic⟩ := closedWalks_spec ends
      have covered :
          ∀ node ∈ graph.nodes,
            (∃ point ∈ entryPoints graph, ReachedFrom graph point.file node.id) ∨
              ∃ cycle ∈ walks.map (cycleOf graph), ∃ file ∈ cycle.files,
                ReachedFrom graph file node.id := by
        intro node member
        obtain ⟨first, known, reaches, unentered | ⟨walk, walkMember, onWalk⟩⟩ :=
          reached_of_closedWalks ends acyclic node.id (List.mem_map.mpr ⟨node, member, rfl⟩)
        · exact Or.inl (reachedFrom_entryPoint known unentered reaches)
        · exact Or.inr ⟨_, List.mem_map.mpr ⟨walk, walkMember, rfl⟩,
            reachedFrom_cycle known onWalk reaches⟩
      refine ⟨_, patterns_of_closedWalks searched, covered, ?_⟩
      intro nonempty noCycle noPoint
      obtain ⟨node, member⟩ := List.exists_mem_of_ne_nil graph.nodes nonempty
      dsimp only at noCycle noPoint
      rcases covered node member with ⟨point, listed, _⟩ | ⟨cycle, listed, _⟩
      · rw [noPoint] at listed
        cases listed
      · rw [noCycle] at listed
        cases listed

end ModuleAtlas.Graph
