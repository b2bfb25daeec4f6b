import ModuleAtlas.Proofs.ClosedWalks
import ModuleAtlas.Proofs.GraphContents

/-!
# Cycles as they are reported

A cycle is reported by the paths of its files, while the search goes along the
identities of nodes.  In a graph in which neither comes twice the one stands
for the other, so what is known of the walks of the search holds of the cycles
that are reported:

* each is a cycle of the graph, and its length is the number of its edges;
* the graph without their closing edges has no cycle, so wherever files reach
  each other in a circle, a cycle among them is reported;
* none is reported twice, and an import that is made again changes nothing.
-/

namespace ModuleAtlas.Graph

open Relation

variable {ε : Type}

/-- No identity and no path comes twice, and edges lead between nodes. -/
structure IsWellFormed (graph : Graph) : Prop where
  ids : graph.ids.Nodup
  paths : (graph.nodes.map (·.path)).Nodup
  ends : EndsKnown graph

/-- Every graph that is built is well formed. -/
theorem isWellFormed_of_build
    {resolve : String → String → Except ε (Option String)} {table : Table}
    {graph : Graph} (built : build resolve table = .ok graph) :
    IsWellFormed graph := by
  have contents := isGraphOf_of_build built
  refine ⟨contents.nodup, ?_, ends_mem_of_build built⟩
  have ids : (graph.nodes.map (·.path)).map nodeId = graph.ids := by
    rw [Graph.ids, List.map_map]
    apply List.map_congr_left
    intro node member
    obtain ⟨file, _, rfl⟩ := contents.node node member
    rfl
  have nodup := contents.nodup
  rw [← ids] at nodup
  exact nodup.of_map nodeId

/-- The path of the node with the identity. -/
def pathOf (graph : Graph) (id : String) : String :=
  ((pathsOf graph.nodes).lookup id).getD id

/-- An edge leads from the node of the one file to the node of the other. -/
def LinksFiles (graph : Graph) (importer imported : String) : Prop :=
  ∃ origin ∈ graph.nodes, ∃ target ∈ graph.nodes,
    origin.path = importer ∧ target.path = imported ∧ Links graph origin.id target.id

theorem lookup_pathsOf {graph : Graph} {id : String} (known : id ∈ graph.ids) :
    (pathsOf graph.nodes).lookup id = some (graph.pathOf id) := by
  obtain ⟨path, found⟩ := mem_keys_iff.mp (mem_keys_pathsOf.mpr known)
  rw [pathOf, found]
  rfl

theorem files_cycleOf
    {graph : Graph} {walk : List String} (known : ∀ id ∈ walk, id ∈ graph.ids) :
    (cycleOf graph walk).files = walk.map graph.pathOf := by
  have found :
      ∀ id ∈ walk, (pathsOf graph.nodes).lookup id = (some ∘ graph.pathOf) id := by
    intro id member
    exact lookup_pathsOf (known id member)
  rw [cycleOf, List.filterMap_congr found, List.filterMap_eq_map]

theorem cycles_of_closedWalks
    {graph : Graph} {walks : List (List String)}
    (searched : graph.closedWalks = .ok walks) :
    graph.cycles = .ok (walks.map (cycleOf graph)) := by
  rw [cycles, searched]
  rfl

namespace IsWellFormed

variable {graph : Graph}

theorem pathOf_node
    (wellFormed : IsWellFormed graph) {node : Node} (member : node ∈ graph.nodes) :
    graph.pathOf node.id = node.path := by
  have paths : pathsOf graph.nodes = graph.nodes.map fun node => (node.id, node.path) :=
    @Json.foldl_putField_of_nodup String String _ Node [] graph.nodes (·.id) (·.path) wellFormed.ids
  have nodup : ((pathsOf graph.nodes).map (·.1)).Nodup := by
    rw [paths, List.map_map]
    exact wellFormed.ids
  have found : (pathsOf graph.nodes).lookup node.id = some node.path := by
    rw [lookup_eq_some_iff_mem nodup, paths]
    exact List.mem_map.mpr ⟨node, member, rfl⟩
  rw [pathOf, found]
  rfl

theorem pathOf_injOn (wellFormed : IsWellFormed graph) :
    Set.InjOn graph.pathOf {id | id ∈ graph.ids} := by
  intro id known other otherKnown same
  obtain ⟨node, member, rfl⟩ := List.mem_map.mp known
  obtain ⟨otherNode, otherMember, rfl⟩ := List.mem_map.mp otherKnown
  rw [wellFormed.pathOf_node member, wellFormed.pathOf_node otherMember] at same
  rw [List.inj_on_of_nodup_map wellFormed.paths member otherMember same]

theorem linksFiles_iff
    (wellFormed : IsWellFormed graph) {importer imported : String} :
    LinksFiles graph importer imported ↔
      ∃ origin target, Links graph origin target ∧
        graph.pathOf origin = importer ∧ graph.pathOf target = imported := by
  constructor
  · rintro ⟨origin, member, target, targetMember, rfl, rfl, link⟩
    exact ⟨origin.id, target.id, link, wellFormed.pathOf_node member,
      wellFormed.pathOf_node targetMember⟩
  · rintro ⟨origin, target, link, rfl, rfl⟩
    obtain ⟨known, targetKnown⟩ := wellFormed.ends.of_links link
    obtain ⟨node, member, rfl⟩ := List.mem_map.mp known
    obtain ⟨targetNode, targetMember, rfl⟩ := List.mem_map.mp targetKnown
    exact ⟨node, member, targetNode, targetMember,
      (wellFormed.pathOf_node member).symm, (wellFormed.pathOf_node targetMember).symm, link⟩

end IsWellFormed

/-! ## Walks by files -/

/-- What the search finds in a graph. -/
structure IsSearchOf (walks : List (List String)) (graph : Graph) : Prop where
  cycles : graph.cycles = .ok (walks.map (cycleOf graph))
  closed : ∀ walk ∈ walks, IsClosedWalk (Links graph) walk
  known : ∀ walk ∈ walks, ∀ id ∈ walk, id ∈ graph.ids
  acyclic : ∀ node, ¬ TransGen (OpenEdge (Links graph) walks) node node
  once : walks.Pairwise fun first second => ¬ SameSteps first second

theorem exists_isSearchOf {graph : Graph} (ends : EndsKnown graph) :
    ∃ walks, IsSearchOf walks graph := by
  obtain ⟨walks, searched, closed, acyclic⟩ := closedWalks_spec ends
  have once := closedWalks_not_sameSteps ends searched
  have known : ∀ walk ∈ walks, ∀ id ∈ walk, id ∈ graph.ids := by
    intro walk member
    exact known_of_isClosedWalk ends (closed walk member)
  exact ⟨walks, cycles_of_closedWalks searched, closed, known, acyclic, once⟩

namespace IsSearchOf

variable {graph : Graph} {walks : List (List String)}

theorem files_eq (search : IsSearchOf walks graph) :
    (walks.map (cycleOf graph)).map (·.files) = walks.map (List.map graph.pathOf) := by
  rw [List.map_map]
  apply List.map_congr_left
  intro walk member
  exact files_cycleOf (search.known walk member)

theorem isClosedWalk_files
    (search : IsSearchOf walks graph) (wellFormed : IsWellFormed graph)
    {walk : List String} (member : walk ∈ walks) :
    IsClosedWalk (LinksFiles graph) (cycleOf graph walk).files := by
  rw [files_cycleOf (search.known walk member)]
  refine (search.closed walk member).map wellFormed.pathOf_injOn
    (search.known walk member) ?_
  intro origin target link
  exact wellFormed.linksFiles_iff.mpr ⟨origin, target, link, rfl, rfl⟩

theorem acyclic_files
    (search : IsSearchOf walks graph) (wellFormed : IsWellFormed graph) (file : String) :
    ¬ TransGen (OpenEdge (LinksFiles graph) (walks.map (List.map graph.pathOf))) file file := by
  intro cycle
  have ends :
      ∀ origin target, OpenEdge (Links graph) walks origin target →
        origin ∈ graph.ids ∧ target ∈ graph.ids := by
    intro origin target step
    exact wellFormed.ends.of_links step.1
  have comes :
      ∀ importer imported,
        OpenEdge (LinksFiles graph) (walks.map (List.map graph.pathOf)) importer imported →
        ∃ origin target, OpenEdge (Links graph) walks origin target ∧
          graph.pathOf origin = importer ∧ graph.pathOf target = imported := by
    rintro importer imported ⟨link, stillOpen⟩
    obtain ⟨origin, target, inner, rfl, rfl⟩ := wellFormed.linksFiles_iff.mp link
    refine ⟨origin, target, ⟨inner, ?_⟩, rfl, rfl⟩
    intro closes
    exact stillOpen (closes.map graph.pathOf)
  obtain ⟨node, inner, _⟩ :=
    exists_cycle_of_renamed wellFormed.pathOf_injOn ends comes cycle
  exact search.acyclic node inner

theorem exists_walk_in_component_files
    (search : IsSearchOf walks graph) (wellFormed : IsWellFormed graph)
    {file : String} (cycle : TransGen (LinksFiles graph) file file) :
    ∃ walk ∈ walks, ∀ other ∈ (cycleOf graph walk).files,
      ReflTransGen (LinksFiles graph) file other ∧ ReflTransGen (LinksFiles graph) other file := by
  have ends :
      ∀ origin target, Links graph origin target → origin ∈ graph.ids ∧ target ∈ graph.ids := by
    intro origin target link
    exact wellFormed.ends.of_links link
  obtain ⟨node, inner, rfl⟩ :=
    exists_cycle_of_renamed wellFormed.pathOf_injOn ends
      (fun _ _ => wellFormed.linksFiles_iff.mp) cycle
  have byFiles :
      ∀ {origin target : String}, ReflTransGen (Links graph) origin target →
        ReflTransGen (LinksFiles graph) (graph.pathOf origin) (graph.pathOf target) := by
    intro origin target reaches
    refine ReflTransGen.lift graph.pathOf ?_ origin target reaches
    intro first second link
    exact wellFormed.linksFiles_iff.mpr ⟨first, second, link, rfl, rfl⟩
  obtain ⟨walk, member, around⟩ :=
    exists_walk_in_component search.closed search.acyclic inner
  refine ⟨walk, member, ?_⟩
  rw [files_cycleOf (search.known walk member)]
  intro other otherMember
  obtain ⟨id, onWalk, rfl⟩ := List.mem_map.mp otherMember
  exact ⟨byFiles (around id onWalk).1, byFiles (around id onWalk).2⟩

theorem once_files
    (search : IsSearchOf walks graph) (wellFormed : IsWellFormed graph) :
    (walks.map (cycleOf graph)).Pairwise fun first second =>
      ¬ SameSteps first.files second.files := by
  rw [List.pairwise_map]
  refine search.once.imp_of_mem ?_
  intro first second firstMember secondMember different same
  rw [files_cycleOf (search.known first firstMember),
    files_cycleOf (search.known second secondMember)] at same
  exact different (SameSteps.of_map wellFormed.pathOf_injOn
    (search.known first firstMember) (search.known second secondMember) same)

end IsSearchOf

/-! ## Cycles of well-formed graphs -/

def tangledNodes : List Node :=
  [("a.js", "A.js"), ("b.js", "b.js"), ("c.js", "c.js"), ("d.js", "d.js")].map
    fun file => ⟨file.1, file.2, .unknown, file.2, 1, 0⟩

def tangledEdges : List Edge :=
  [("a.js", "b.js"), ("b.js", "a.js"), ("b.js", "c.js"), ("b.js", "a.js"), ("c.js", "b.js"),
    ("c.js", "c.js"), ("d.js", "b.js")].map
      fun ends => ⟨ends.1, ends.2, "./" ++ ends.2, "import"⟩

/-- Two circles that share a file, a file that imports itself, an import that
is made twice, and a file that leads into the circles from outside. -/
def tangledGraph : Graph :=
  ⟨tangledNodes, tangledEdges, statsOf tangledNodes tangledEdges⟩

def tangledCycles : List Cycle :=
  [⟨["A.js", "b.js", "A.js"], 2⟩, ⟨["b.js", "c.js", "b.js"], 2⟩, ⟨["c.js", "c.js"], 1⟩]

theorem isWellFormed_tangledGraph : IsWellFormed tangledGraph where
  ids := by decide
  paths := by decide
  ends := by
    unfold EndsKnown
    decide

theorem closedWalks_tangledGraph :
    closedWalks tangledGraph =
      .ok [["a.js", "b.js", "a.js"], ["b.js", "c.js", "b.js"], ["c.js", "c.js"]] := by
  have ids : (pathsOf tangledNodes).map (·.1) = ["a.js", "b.js", "c.js", "d.js"] := by
    decide
  have adjacency : adjacencyOf ["a.js", "b.js", "c.js", "d.js"] tangledEdges =
      .ok [("a.js", ["b.js"]), ("b.js", ["a.js", "c.js"]), ("c.js", ["b.js", "c.js"]),
        ("d.js", ["b.js"])] := by
    decide
  simp only [closedWalks, tangledGraph, ids, adjacency, bind, Except.bind]
  -- The recursion of the search is not structural, so its equations run it.
  simp [searchAll, search, pathNodes, closedWalk, List.lookup_cons]

theorem eq_tangledCycles {cycles : List Cycle} (told : tangledGraph.cycles = .ok cycles) :
    cycles = tangledCycles := by
  have computed : tangledGraph.cycles = .ok tangledCycles := by
    simp only [Graph.cycles, closedWalks_tangledGraph]
    rfl
  rw [computed, Except.ok.injEq] at told
  exact told.symm

/-- Every reported cycle is one of the graph: its files but the last are all
different, the last is the first again, and each file has an edge to the
next. -/
theorem reported_cycles_are_closed_walks {graph : Graph} (wellFormed : IsWellFormed graph) :
    ∃ cycles, graph.cycles = .ok cycles ∧
      ∀ cycle ∈ cycles,
        cycle.files.length = cycle.length + 1 ∧ 1 ≤ cycle.length ∧
          IsClosedWalk (LinksFiles graph) cycle.files := by
  obtain ⟨walks, search⟩ := exists_isSearchOf wellFormed.ends
  refine ⟨_, search.cycles, ?_⟩
  intro cycle member
  obtain ⟨walk, walkMember, rfl⟩ := List.mem_map.mp member
  have closed := search.isClosedWalk_files wellFormed walkMember
  have long : 2 ≤ (cycleOf graph walk).files.length := closed.two_le_length
  have length : (cycleOf graph walk).length = (cycleOf graph walk).files.length - 1 := rfl
  exact ⟨by omega, by omega, closed⟩

theorem reported_cycles_are_closed_walks_tangled :
    IsWellFormed tangledGraph ∧ tangledGraph.cycles = .ok tangledCycles ∧
      ∀ cycle ∈ tangledCycles,
        cycle.files.length = cycle.length + 1 ∧ 1 ≤ cycle.length ∧
          IsClosedWalk (LinksFiles tangledGraph) cycle.files := by
  obtain ⟨cycles, told, closed⟩ := reported_cycles_are_closed_walks isWellFormed_tangledGraph
  obtain rfl := eq_tangledCycles told
  exact ⟨isWellFormed_tangledGraph, told, closed⟩

/-- Without the edges that close a reported cycle the graph has no cycle.  So
wherever files reach each other in a circle, a reported cycle lies among
them. -/
theorem closing_edges_break_cycles {graph : Graph} (wellFormed : IsWellFormed graph) :
    ∃ cycles, graph.cycles = .ok cycles ∧
      (∀ file, ¬ TransGen (OpenEdge (LinksFiles graph) (cycles.map (·.files))) file file) ∧
      ∀ file, TransGen (LinksFiles graph) file file →
        ∃ cycle ∈ cycles, IsClosedWalk (LinksFiles graph) cycle.files ∧
          ∀ other ∈ cycle.files,
            ReflTransGen (LinksFiles graph) file other ∧
              ReflTransGen (LinksFiles graph) other file := by
  obtain ⟨walks, search⟩ := exists_isSearchOf wellFormed.ends
  refine ⟨_, search.cycles, ?_, ?_⟩
  · rw [search.files_eq]
    exact search.acyclic_files wellFormed
  · intro file cycle
    obtain ⟨walk, member, around⟩ := search.exists_walk_in_component_files wellFormed cycle
    exact ⟨_, List.mem_map.mpr ⟨walk, member, rfl⟩,
      search.isClosedWalk_files wellFormed member, around⟩

theorem closing_edges_break_cycles_tangled :
    IsWellFormed tangledGraph ∧ tangledGraph.cycles = .ok tangledCycles ∧
      (∀ file, ¬ TransGen
        (OpenEdge (LinksFiles tangledGraph) (tangledCycles.map (·.files))) file file) ∧
      ∀ file, TransGen (LinksFiles tangledGraph) file file →
        ∃ cycle ∈ tangledCycles, IsClosedWalk (LinksFiles tangledGraph) cycle.files ∧
          ∀ other ∈ cycle.files,
            ReflTransGen (LinksFiles tangledGraph) file other ∧
              ReflTransGen (LinksFiles tangledGraph) other file := by
  obtain ⟨cycles, told, acyclic, components⟩ :=
    closing_edges_break_cycles isWellFormed_tangledGraph
  obtain rfl := eq_tangledCycles told
  exact ⟨isWellFormed_tangledGraph, told, acyclic, components⟩

/-- No two reported cycles have the same steps, so none is another one begun
at a different file.  An edge that is there already can be added again, and the
same cycles are reported. -/
theorem cycles_reported_once {graph : Graph} (wellFormed : IsWellFormed graph) :
    ∃ cycles, graph.cycles = .ok cycles ∧
      (cycles.Pairwise fun first second => ¬ SameSteps first.files second.files) ∧
      (cycles.Pairwise fun first second => ¬ first.files.dropLast ~r second.files.dropLast) ∧
      ∀ edge ∈ graph.edges, ∀ source form stats,
        Graph.cycles ⟨graph.nodes, graph.edges ++ [⟨edge.origin, edge.target, source, form⟩],
          stats⟩ = .ok cycles := by
  obtain ⟨walks, search⟩ := exists_isSearchOf wellFormed.ends
  have once := search.once_files wellFormed
  refine ⟨_, search.cycles, once, ?_, ?_⟩
  · refine once.imp_of_mem ?_
    intro first second firstMember secondMember different rotated
    obtain ⟨walk, member, rfl⟩ := List.mem_map.mp firstMember
    obtain ⟨other, otherMember, rfl⟩ := List.mem_map.mp secondMember
    exact different ((search.isClosedWalk_files wellFormed member).sameSteps
      (search.isClosedWalk_files wellFormed otherMember) rotated)
  · intro edge member source form stats
    have link : Links graph edge.origin edge.target := ⟨edge, member, rfl, rfl⟩
    have same :=
      @closedWalks_repeatEdge graph wellFormed.ends
        ⟨edge.origin, edge.target, source, form⟩ stats link
    rw [← search.cycles, cycles, same]
    rfl

theorem cycles_reported_once_tangled :
    IsWellFormed tangledGraph ∧ tangledGraph.cycles = .ok tangledCycles ∧
      (tangledCycles.Pairwise fun first second => ¬ SameSteps first.files second.files) ∧
      (tangledCycles.Pairwise fun first second =>
        ¬ first.files.dropLast ~r second.files.dropLast) ∧
      ∀ edge ∈ tangledEdges, ∀ source form stats,
        Graph.cycles ⟨tangledNodes, tangledEdges ++ [⟨edge.origin, edge.target, source, form⟩],
          stats⟩ = .ok tangledCycles := by
  obtain ⟨cycles, told, different, unrotated, repeated⟩ :=
    cycles_reported_once isWellFormed_tangledGraph
  obtain rfl := eq_tangledCycles told
  exact ⟨isWellFormed_tangledGraph, told, different, unrotated, repeated⟩

end ModuleAtlas.Graph
