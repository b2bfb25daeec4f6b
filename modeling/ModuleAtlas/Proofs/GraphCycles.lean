import ModuleAtlas.Graph.Patterns
import ModuleAtlas.Proofs.CycleOrder

/-!
# Cycles of graphs

What the search for cycles says about the edges of a graph.  The adjacency of
a graph lists exactly its edges, so the laws of the search become laws of the
graph: reported cycles are cycles of the edges, and what is left of the edges
without those that close a reported cycle has none.
-/

namespace ModuleAtlas.Graph

open Relation

/-- Some edge of the graph leads from `origin` to `target`. -/
def Links (graph : Graph) (origin target : String) : Prop :=
  ∃ edge ∈ graph.edges, edge.origin = origin ∧ edge.target = target

/-- Both ends of every edge are nodes of the graph. -/
def EndsKnown (graph : Graph) : Prop :=
  ∀ edge ∈ graph.edges, edge.origin ∈ graph.ids ∧ edge.target ∈ graph.ids

theorem EndsKnown.of_links
    {graph : Graph} {origin target : String}
    (ends : EndsKnown graph) (link : Links graph origin target) :
    origin ∈ graph.ids ∧ target ∈ graph.ids := by
  obtain ⟨edge, member, rfl, rfl⟩ := link
  exact ends edge member

/-! ## The adjacency of a graph -/

/-- One more edge adds itself to the adjacency and nothing else. -/
theorem addTarget_spec
    {adjacency : Adjacency} {edge : Edge}
    (known : edge.origin ∈ adjacency.map (·.1)) :
    ∃ extended,
      addTarget adjacency edge = .ok extended ∧
        extended.map (·.1) = adjacency.map (·.1) ∧
        ∀ origin target, Leads extended origin target ↔
          Leads adjacency origin target ∨
            (edge.origin = origin ∧ edge.target = target) := by
  obtain ⟨targets, lookedUp⟩ := mem_keys_iff.mp known
  by_cases listed : edge.target ∈ targets
  · refine ⟨adjacency, ?_, rfl, ?_⟩
    · simp [addTarget, lookedUp, listed]
    · intro origin target
      constructor
      · exact Or.inl
      · intro given
        rcases given with leads | ⟨rfl, rfl⟩
        · exact leads
        · exact ⟨targets, lookedUp, listed⟩
  · refine ⟨Json.putField adjacency edge.origin (targets ++ [edge.target]), ?_, ?_, ?_⟩
    · simp [addTarget, lookedUp, listed]
    · rw [Json.keys_putField, if_pos known]
    · intro origin target
      simp only [Leads, Json.lookup_putField]
      by_cases same : origin = edge.origin
      · subst same
        simp [lookedUp, eq_comm]
      · simp [same, Ne.symm same]

/-- The edges added one after another are all that is added. -/
theorem foldlM_addTarget_spec
    {adjacency : Adjacency} {edges : List Edge}
    (known : ∀ edge ∈ edges, edge.origin ∈ adjacency.map (·.1)) :
    ∃ extended,
      edges.foldlM addTarget adjacency = .ok extended ∧
        extended.map (·.1) = adjacency.map (·.1) ∧
        ∀ origin target, Leads extended origin target ↔
          Leads adjacency origin target ∨
            ∃ edge ∈ edges, edge.origin = origin ∧ edge.target = target := by
  induction edges generalizing adjacency with
  | nil =>
      exact ⟨adjacency, rfl, rfl, by simp⟩
  | cons edge rest inductionHypothesis =>
      obtain ⟨next, added, nextKeys, nextLeads⟩ :=
        addTarget_spec (known edge List.mem_cons_self)
      have restKnown : ∀ later ∈ rest, later.origin ∈ next.map (·.1) := by
        intro later member
        rw [nextKeys]
        exact known later (List.mem_cons_of_mem edge member)
      obtain ⟨extended, folded, keys, leads⟩ := inductionHypothesis restKnown
      refine ⟨extended, ?_, keys.trans nextKeys, ?_⟩
      · rw [List.foldlM_cons, added]
        exact folded
      · intro origin target
        rw [leads, nextLeads, List.exists_mem_cons_iff, or_assoc]

/-- Before any edge is added, nothing leads anywhere. -/
theorem targets_eq_nil_of_lookup
    {ids targets : List String} {origin : String}
    (found : (ids.map fun id => (id, ([] : List String))).lookup origin = some targets) :
    targets = [] := by
  obtain ⟨initial, final, shape, _⟩ := List.lookup_eq_some_iff.mp found
  have listed : (origin, targets) ∈ ids.map fun id => (id, ([] : List String)) := by
    simp [shape]
  obtain ⟨id, _, equal⟩ := List.mem_map.mp listed
  cases equal
  rfl

/-- The adjacency of edges over nodes lists the edges, and its keys are the
nodes. -/
theorem adjacencyOf_spec
    {ids : List String} {edges : List Edge}
    (known : ∀ edge ∈ edges, edge.origin ∈ ids) :
    ∃ adjacency,
      adjacencyOf ids edges = .ok adjacency ∧
        adjacency.map (·.1) = ids ∧
        ∀ origin target, Leads adjacency origin target ↔
          ∃ edge ∈ edges, edge.origin = origin ∧ edge.target = target := by
  have initialKeys :
      (ids.map fun id => (id, ([] : List String))).map (·.1) = ids := by
    simp [Function.comp_def]
  have initialLeads :
      ∀ origin target,
        ¬ Leads (ids.map fun id => (id, ([] : List String))) origin target := by
    rintro origin target ⟨targets, lookedUp, member⟩
    rw [targets_eq_nil_of_lookup lookedUp] at member
    simp at member
  have originsKnown :
      ∀ edge ∈ edges,
        edge.origin ∈ (ids.map fun id => (id, ([] : List String))).map (·.1) := by
    rwa [initialKeys]
  obtain ⟨adjacency, built, keys, leads⟩ := foldlM_addTarget_spec originsKnown
  refine ⟨adjacency, built, keys.trans initialKeys, ?_⟩
  intro origin target
  rw [leads]
  simp [initialLeads origin target]

/-- A target that is listed already is not listed again. -/
theorem addTarget_of_leads
    {adjacency : Adjacency} {edge : Edge}
    (leads : Leads adjacency edge.origin edge.target) :
    addTarget adjacency edge = .ok adjacency := by
  obtain ⟨targets, lookedUp, listed⟩ := leads
  simp [addTarget, lookedUp, listed]

theorem TargetsDistinct.of_addTarget
    {adjacency extended : Adjacency} {edge : Edge}
    (distinct : TargetsDistinct adjacency)
    (added : addTarget adjacency edge = .ok extended) :
    TargetsDistinct extended := by
  unfold addTarget at added
  split at added
  · cases added
  · next targets lookedUp =>
    split at added
    · cases added
      exact distinct
    · next unlisted =>
      cases added
      have fresh : edge.target ∉ targets := by
        simpa using unlisted
      intro origin listed found
      rw [Json.lookup_putField] at found
      split at found
      · cases found
        rw [← List.concat_eq_append]
        exact (distinct _ _ lookedUp).concat fresh
      · exact distinct _ _ found

theorem TargetsDistinct.of_foldlM_addTarget
    {adjacency extended : Adjacency} {edges : List Edge}
    (distinct : TargetsDistinct adjacency)
    (folded : edges.foldlM addTarget adjacency = .ok extended) :
    TargetsDistinct extended := by
  induction edges generalizing adjacency with
  | nil =>
      cases folded
      exact distinct
  | cons edge rest inductionHypothesis =>
      rw [List.foldlM_cons] at folded
      cases added : addTarget adjacency edge with
      | error unknown =>
          rw [added] at folded
          cases folded
      | ok next =>
          rw [added] at folded
          exact inductionHypothesis (distinct.of_addTarget added) folded

/-! ## The walks of a graph -/

theorem mem_keys_pathsOf
    {nodes : List Node} {id : String} :
    id ∈ (pathsOf nodes).map (·.1) ↔ id ∈ nodes.map (·.id) := by
  have folded :=
    @Json.mem_keys_foldl_putField String String _ Node [] nodes (·.id) (·.path) id
  rw [List.map_nil, List.mem_nil_iff, false_or] at folded
  exact folded

/-- The adjacency that the edges of the graph come to. -/
structure IsAdjacencyOf (adjacency : Adjacency) (graph : Graph) : Prop where
  built : adjacencyOf ((pathsOf graph.nodes).map (·.1)) graph.edges = .ok adjacency
  keys : adjacency.map (·.1) = (pathsOf graph.nodes).map (·.1)
  leads : Leads adjacency = Links graph

theorem exists_isAdjacencyOf
    {graph : Graph} (ends : EndsKnown graph) :
    ∃ adjacency, IsAdjacencyOf adjacency graph := by
  have originsKnown :
      ∀ edge ∈ graph.edges, edge.origin ∈ (pathsOf graph.nodes).map (·.1) := by
    intro edge member
    exact mem_keys_pathsOf.mpr (ends edge member).1
  obtain ⟨adjacency, built, keys, leads⟩ := adjacencyOf_spec originsKnown
  refine ⟨adjacency, built, keys, ?_⟩
  funext origin target
  exact propext (leads origin target)

namespace IsAdjacencyOf

variable {adjacency : Adjacency} {graph : Graph}

theorem closedWalks_eq (describes : IsAdjacencyOf adjacency graph) :
    graph.closedWalks = searchAll adjacency (adjacency.map (·.1)) [] [] := by
  rw [closedWalks, describes.built, ← describes.keys]
  rfl

theorem targetsKnown
    (describes : IsAdjacencyOf adjacency graph) (ends : EndsKnown graph) :
    TargetsKnown adjacency := by
  intro origin target edge
  rw [describes.leads] at edge
  apply mem_keys_iff.mp
  rw [describes.keys]
  exact mem_keys_pathsOf.mpr (ends.of_links edge).2

theorem targetsDistinct (describes : IsAdjacencyOf adjacency graph) :
    TargetsDistinct adjacency := by
  refine TargetsDistinct.of_foldlM_addTarget ?_ describes.built
  intro origin targets found
  rw [targets_eq_nil_of_lookup found]
  exact List.nodup_nil

/-- An edge with the ends of another one changes nothing. -/
theorem repeatEdge
    (describes : IsAdjacencyOf adjacency graph) {edge : Edge} (stats : Stats)
    (link : Links graph edge.origin edge.target) :
    IsAdjacencyOf adjacency ⟨graph.nodes, graph.edges ++ [edge], stats⟩ := by
  have leads : Leads adjacency edge.origin edge.target := by
    rw [describes.leads]
    exact link
  refine ⟨?_, describes.keys, ?_⟩
  · have built := describes.built
    unfold adjacencyOf at built ⊢
    rw [List.foldlM_append, built]
    show (addTarget adjacency edge >>= pure) = .ok adjacency
    rw [addTarget_of_leads leads]
    rfl
  · rw [describes.leads]
    funext origin target
    apply propext
    constructor
    · rintro ⟨old, member, ends⟩
      exact ⟨old, List.mem_append_left _ member, ends⟩
    · rintro ⟨other, member, rfl, rfl⟩
      rcases List.mem_append.mp member with old | new
      · exact ⟨other, old, rfl, rfl⟩
      · rw [List.mem_singleton.mp new]
        exact link

end IsAdjacencyOf

/-- The search over a graph ends. Its walks are cycles of the edges, and the
edges that close none of them lie on no cycle. -/
theorem closedWalks_spec
    {graph : Graph} (ends : EndsKnown graph) :
    ∃ walks,
      graph.closedWalks = .ok walks ∧
        (∀ walk ∈ walks, IsClosedWalk (Links graph) walk) ∧
        ∀ node, ¬ TransGen (OpenEdge (Links graph) walks) node node := by
  obtain ⟨adjacency, describes⟩ := exists_isAdjacencyOf ends
  rw [describes.closedWalks_eq, ← describes.leads]
  exact searchAll_spec (describes.targetsKnown ends)

/-- No two walks of the search over a graph have the same steps. -/
theorem closedWalks_not_sameSteps
    {graph : Graph} {walks : List (List String)} (ends : EndsKnown graph)
    (searched : graph.closedWalks = .ok walks) :
    walks.Pairwise fun first second => ¬ SameSteps first second := by
  obtain ⟨adjacency, describes⟩ := exists_isAdjacencyOf ends
  rw [describes.closedWalks_eq] at searched
  exact searchAll_not_sameSteps (describes.targetsKnown ends) describes.targetsDistinct searched

/-- An edge that repeats another one does not change what the search finds. -/
theorem closedWalks_repeatEdge
    {graph : Graph} (ends : EndsKnown graph) {edge : Edge} (stats : Stats)
    (link : Links graph edge.origin edge.target) :
    closedWalks ⟨graph.nodes, graph.edges ++ [edge], stats⟩ = graph.closedWalks := by
  obtain ⟨adjacency, describes⟩ := exists_isAdjacencyOf ends
  rw [(describes.repeatEdge stats link).closedWalks_eq, describes.closedWalks_eq]

theorem known_of_isClosedWalk
    {graph : Graph} {walk : List String} (ends : EndsKnown graph)
    (closed : IsClosedWalk (Links graph) walk) :
    ∀ id ∈ walk, id ∈ graph.ids := by
  intro id member
  obtain ⟨_, link⟩ := closed.entered id member
  exact (ends.of_links link).2

/-! ## The cycles of a graph -/

/-- The files of a walk over known nodes are as many as its nodes. -/
theorem length_filterMap_lookup
    {paths : List (String × String)} {walk : List String}
    (known : ∀ id ∈ walk, id ∈ paths.map (·.1)) :
    (walk.filterMap fun id => paths.lookup id).length = walk.length := by
  induction walk with
  | nil =>
      rfl
  | cons id rest inductionHypothesis =>
      obtain ⟨path, lookedUp⟩ := mem_keys_iff.mp (known id List.mem_cons_self)
      have restKnown : ∀ later ∈ rest, later ∈ paths.map (·.1) := by
        intro later member
        exact known later (List.mem_cons_of_mem id member)
      simp only [List.filterMap_cons, lookedUp, List.length_cons,
        inductionHypothesis restKnown]

/-- The cycles of a graph can be told. Each names two files at least, and there
is one exactly if the edges have a cycle. -/
theorem cycles_spec
    {graph : Graph} (ends : EndsKnown graph) :
    ∃ cycles,
      graph.cycles = .ok cycles ∧
        (∀ cycle ∈ cycles, 2 ≤ cycle.files.length) ∧
        (cycles ≠ [] ↔ ∃ node, TransGen (Links graph) node node) := by
  obtain ⟨walks, answer, closed, acyclic⟩ := closedWalks_spec ends
  refine ⟨_, by rw [cycles, answer]; rfl, ?_, ?_⟩
  · intro cycle member
    obtain ⟨walk, walkMember, rfl⟩ := List.mem_map.mp member
    have known : ∀ id ∈ walk, id ∈ (pathsOf graph.nodes).map (·.1) := by
      intro id idMember
      exact mem_keys_pathsOf.mpr (known_of_isClosedWalk ends (closed walk walkMember) id idMember)
    rw [length_filterMap_lookup known]
    exact (closed walk walkMember).two_le_length
  · rw [ne_eq, List.map_eq_nil_iff]
    constructor
    · intro reported
      obtain ⟨walk, member⟩ := List.exists_mem_of_ne_nil walks reported
      exact (closed walk member).transGen
    · rintro ⟨node, cycle⟩ empty
      -- With no walk reported no edge closes one, so all edges are open.
      have allOpen : Links graph ≤ OpenEdge (Links graph) walks := by
        intro origin target link
        refine ⟨link, ?_⟩
        intro given
        obtain ⟨walk, member, _⟩ := given
        rw [empty] at member
        simp at member
      exact acyclic node (TransGen.mono allOpen node node cycle)

end ModuleAtlas.Graph
