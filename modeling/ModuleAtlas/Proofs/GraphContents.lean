import ModuleAtlas.Graph.Patterns
import ModuleAtlas.Proofs.GraphConstruction
import ModuleAtlas.Proofs.GraphCycles

/-!
# Contents of graphs

What a graph holds, told from the table and the outcomes of resolution alone:
its nodes, its edges and its counts.  A graph refers to nothing outside of
itself, so the patterns of its shape can always be told, and they name files
of the table only.
-/

namespace ModuleAtlas.Graph

variable {ε : Type}

/-! ## Nodes -/

theorem ids_foldl_addNode
    (nodes : List Node) (files : List (String × Entry)) :
    (files.foldl addNode nodes).map (·.id) =
      nodes.map (·.id) ++
        ((files.map fun file => nodeId file.1).filter
          fun id => !(nodes.map (·.id)).contains id).eraseDups := by
  induction files generalizing nodes with
  | nil =>
      simp
  | cons file rest inductionHypothesis =>
      rw [List.foldl_cons, inductionHypothesis, ids_addNode, List.map_cons]
      by_cases known : nodeId file.1 ∈ nodes.map (·.id)
      · have dropped : (!(nodes.map (·.id)).contains (nodeId file.1)) = false := by
          rw [List.contains_iff_mem.mpr known, Bool.not_true]
        rw [if_pos known, List.filter_cons_of_neg (by simp only [dropped, Bool.false_eq_true,
          not_false_eq_true])]
      · have kept : (!(nodes.map (·.id)).contains (nodeId file.1)) = true := by
          rw [Bool.not_eq_true', ← Bool.not_eq_true, List.contains_iff_mem]
          exact known
        -- Later files with the identity of this one are dropped on both sides.
        have sameTest :
            (fun id => !(nodes.map (·.id) ++ [nodeId file.1]).contains id) =
              fun id => (!id == nodeId file.1) && !(nodes.map (·.id)).contains id := by
          funext id
          simp only [List.contains_append, List.contains_cons, List.contains_nil,
            Bool.or_false, Bool.not_or, Bool.and_comm]
        have filtered :=
          @List.filter_cons_of_pos _ (fun id => !(nodes.map (·.id)).contains id)
            (nodeId file.1) (rest.map fun file => nodeId file.1) kept
        rw [if_neg known, filtered, List.eraseDups_cons, List.filter_filter,
          sameTest, List.append_assoc, List.singleton_append]

/-- The identities of the nodes are those of the files, in the order in which
they first occur. -/
theorem ids_nodesOf (table : Table) :
    (nodesOf table).map (·.id) = (table.paths.map nodeId).eraseDups := by
  rw [nodesOf, ids_foldl_addNode, Table.paths, List.map_map]
  simp [Function.comp_def]

theorem node_of_mem_foldl_addNode
    {nodes : List Node} {files : List (String × Entry)} {node : Node}
    (member : node ∈ files.foldl addNode nodes) :
    node ∈ nodes ∨
      (node.id ∉ nodes.map (·.id) ∧
        ∃ file, files.find? (fun file => nodeId file.1 == node.id) = some file ∧
          node = Node.ofEntry file.1 file.2) := by
  induction files generalizing nodes with
  | nil =>
      exact Or.inl member
  | cons file rest inductionHypothesis =>
      have skip
          (other : nodeId file.1 ≠ node.id) :
          (file :: rest).find? (fun file => nodeId file.1 == node.id) =
            rest.find? fun file => nodeId file.1 == node.id :=
        List.find?_cons_of_neg (by simpa using other)
      have later := inductionHypothesis member
      by_cases known : nodeId file.1 ∈ nodes.map (·.id)
      · have same : addNode nodes file = nodes :=
          if_pos (by simpa using known)
        rw [same] at later
        rcases later with old | ⟨fresh, first, found, shape⟩
        · exact Or.inl old
        · have other : nodeId file.1 ≠ node.id := by
            intro equal
            exact fresh (equal ▸ known)
          exact Or.inr ⟨fresh, first, (skip other).trans found, shape⟩
      · have added : addNode nodes file = nodes ++ [Node.ofEntry file.1 file.2] :=
          if_neg (by simpa using known)
        rw [added] at later
        rcases later with listed | ⟨fresh, first, found, shape⟩
        · rcases List.mem_append.mp listed with old | new
          · exact Or.inl old
          · have shape : node = Node.ofEntry file.1 file.2 := List.mem_singleton.mp new
            subst shape
            exact Or.inr ⟨known, file, List.find?_cons_of_pos (by simp [Node.ofEntry]), rfl⟩
        · rw [List.map_append, List.mem_append, not_or] at fresh
          have other : nodeId file.1 ≠ node.id := by
            intro equal
            exact fresh.2 (List.mem_singleton.mpr equal.symm)
          exact Or.inr ⟨fresh.1, first, (skip other).trans found, shape⟩

/-- A node is that of the first file with its identity. -/
theorem node_of_mem_nodesOf
    {table : Table} {node : Node} (member : node ∈ nodesOf table) :
    ∃ file, table.entries.find? (fun file => nodeId file.1 == node.id) = some file ∧
      node = Node.ofEntry file.1 file.2 := by
  rcases node_of_mem_foldl_addNode member with old | ⟨_, found⟩
  · simp at old
  · exact found

/-! ## Ends of edges -/

/-- No edge begins or ends at the node. -/
def IsIsolated (graph : Graph) (id : String) : Prop :=
  ∀ edge ∈ graph.edges, edge.origin ≠ id ∧ edge.target ≠ id

instance (graph : Graph) (id : String) : Decidable (graph.IsIsolated id) :=
  inferInstanceAs (Decidable (∀ edge ∈ graph.edges, edge.origin ≠ id ∧ edge.target ≠ id))

theorem touched_eq_false_iff {graph : Graph} {id : String} :
    (graph.edges.map (·.origin) ++ graph.edges.map (·.target)).contains id = false ↔
      graph.IsIsolated id := by
  rw [← Bool.not_eq_true, List.contains_iff_mem, List.mem_append, not_or,
    List.mem_map, List.mem_map]
  simp only [not_exists, not_and, IsIsolated]
  exact forall₂_and.symm

theorem outDegree_eq_zero_iff {edges : List Edge} {id : String} :
    outDegree edges id = 0 ↔ ∀ edge ∈ edges, edge.origin ≠ id := by
  rw [outDegree, List.length_eq_zero_iff, List.filter_eq_nil_iff]
  simp

theorem isEntered_eq_false_iff {edges : List Edge} {id : String} :
    (edges.any fun edge => edge.target == id) = false ↔ ∀ edge ∈ edges, edge.target ≠ id := by
  rw [List.any_eq_false]
  simp

/-- The counts of a graph: its nodes, its edges and its isolated nodes. -/
theorem statsOf_eq {graph : Graph} :
    statsOf graph.nodes graph.edges =
      ⟨graph.nodes.length, graph.edges.length,
        (graph.nodes.filter fun node => decide (graph.IsIsolated node.id)).length⟩ := by
  have sameTest :
      (fun node : Node => !(graph.edges.map (·.origin) ++
          graph.edges.map (·.target)).contains node.id) =
        fun node => decide (graph.IsIsolated node.id) := by
    funext node
    rw [Bool.eq_iff_iff, Bool.not_eq_true', decide_eq_true_iff]
    exact touched_eq_false_iff
  rw [statsOf, sameTest]

/-- The isolated nodes are those of the entry points from which nothing leads
on. -/
theorem length_isolated_eq (graph : Graph) :
    (graph.nodes.filter fun node => decide (graph.IsIsolated node.id)).length =
      ((entryPoints graph).filter fun point => point.outgoing == 0).length := by
  rw [entryPoints, List.filter_map, List.length_map, List.filter_filter]
  congr 1
  apply List.filter_congr
  intro node _
  rw [Bool.eq_iff_iff, decide_eq_true_iff, Bool.and_eq_true, Bool.not_eq_true',
    isEntered_eq_false_iff]
  simp only [Function.comp_apply, beq_iff_eq, outDegree_eq_zero_iff]
  exact forall₂_and

/-! ## Files that patterns name -/

theorem node_of_lookup_pathsOf
    {nodes : List Node} {id path : String}
    (found : (pathsOf nodes).lookup id = some path) :
    ∃ node ∈ nodes, node.id = id ∧ node.path = path := by
  have folded :
      ∀ (more : List Node) (known : List (String × String)),
        (more.foldl (fun known node => Json.putField known node.id node.path) known).lookup id =
            some path →
          known.lookup id = some path ∨ ∃ node ∈ more, node.id = id ∧ node.path = path := by
    intro more
    induction more with
    | nil =>
        exact fun known => Or.inl
    | cons node rest inductionHypothesis =>
        intro known later
        rcases inductionHypothesis _ later with before | ⟨other, member, named⟩
        · rw [Json.lookup_putField] at before
          split at before
          · next same =>
              exact Or.inr ⟨node, List.mem_cons_self, same.symm, Option.some.inj before⟩
          · exact Or.inl before
        · exact Or.inr ⟨other, List.mem_cons_of_mem node member, named⟩
  rcases folded nodes [] found with none | given
  · simp at none
  · exact given

/-- The cycle that a closed walk over nodes is reported as. -/
def cycleOf (graph : Graph) (walk : List String) : Cycle :=
  let files := walk.filterMap fun id => (pathsOf graph.nodes).lookup id
  ⟨files, files.length - 1⟩

theorem patterns_of_closedWalks
    {graph : Graph} {walks : List (List String)}
    (searched : graph.closedWalks = .ok walks) :
    graph.patterns =
      .ok ⟨entryPoints graph, hubs graph hubThreshold, clusters graph,
        walks.map (cycleOf graph)⟩ := by
  rw [patterns, cycles, searched]
  rfl

theorem mem_files_cycleOf
    {graph : Graph} {walk : List String} {file : String}
    (member : file ∈ (cycleOf graph walk).files) :
    ∃ node ∈ graph.nodes, node.path = file := by
  obtain ⟨id, _, found⟩ := List.mem_filterMap.mp member
  obtain ⟨node, nodeMember, _, named⟩ := node_of_lookup_pathsOf found
  exact ⟨node, nodeMember, named⟩

theorem mem_entryPoints
    {graph : Graph} {point : EntryPoint} (member : point ∈ entryPoints graph) :
    ∃ node ∈ graph.nodes, node.path = point.file := by
  obtain ⟨node, nodeMember, rfl⟩ := List.mem_map.mp member
  exact ⟨node, (List.mem_filter.mp nodeMember).1, rfl⟩

theorem mem_hubs
    {graph : Graph} {threshold : Int} {hub : Hub} (member : hub ∈ hubs graph threshold) :
    ∃ node ∈ graph.nodes, node.path = hub.file := by
  have ranked := (List.mem_filter.mp (List.mem_mergeSort.mp member)).1
  obtain ⟨node, nodeMember, rfl⟩ := List.mem_map.mp ranked
  exact ⟨node, nodeMember, rfl⟩

/-! ## The graph as a whole -/

/-- The graph is exactly that of the table, as far as imports are resolved. -/
structure IsGraphOf (resolve : String → String → Except ε (Option String))
    (table : Table) (graph : Graph) : Prop where
  nodup : graph.ids.Nodup
  ids : graph.ids = (table.paths.map nodeId).eraseDups
  node : ∀ node ∈ graph.nodes, ∃ file,
    table.entries.find? (fun file => nodeId file.1 == node.id) = some file ∧
      node = Node.ofEntry file.1 file.2
  edges : graph.edges = table.entries.flatMap fun file =>
    file.2.imports.filterMap (importEdge? resolve graph.ids file.1)
  stats : graph.stats =
    ⟨graph.nodes.length, graph.edges.length,
      (graph.nodes.filter fun node => decide (graph.IsIsolated node.id)).length⟩

theorem isGraphOf_of_build
    {resolve : String → String → Except ε (Option String)} {table : Table}
    {graph : Graph} (built : build resolve table = .ok graph) :
    IsGraphOf resolve table graph := by
  have spec := build_spec resolve table
  rw [built] at spec
  obtain ⟨nodes, edges, stats⟩ := spec
  rw [← nodes] at edges
  refine ⟨?_, ?_, ?_, edges, ?_⟩
  · rw [Graph.ids, nodes]
    exact nodup_ids_nodesOf table
  · rw [Graph.ids, nodes]
    exact ids_nodesOf table
  · intro node member
    rw [nodes] at member
    exact node_of_mem_nodesOf member
  · rw [stats, statsOf_eq]

theorem IsGraphOf.path_mem
    {resolve : String → String → Except ε (Option String)} {table : Table}
    {graph : Graph} (contents : IsGraphOf resolve table graph)
    {node : Node} (member : node ∈ graph.nodes) :
    node.path ∈ table.paths := by
  obtain ⟨file, found, shape⟩ := contents.node node member
  rw [shape]
  exact List.mem_map.mpr ⟨file, List.mem_of_find?_eq_some found, rfl⟩

/-- The graph of a table holds exactly what the table and the resolution of its
imports say, unless an import cannot be resolved.  All ends of its edges are
nodes, no search meets a node that is not known, and its patterns name files of
the table only. -/
theorem graph_exact_and_closed
    (resolve : String → String → Except ε (Option String)) (table : Table) :
    match build resolve table with
    | .error fault =>
        ∃ file ∈ table.entries, ∃ reference ∈ file.2.imports,
          resolve reference.source file.1 = .error fault
    | .ok graph =>
        IsGraphOf resolve table graph ∧
          graph.stats.isolatedFiles =
            ((entryPoints graph).filter fun point => point.outgoing == 0).length ∧
          EndsKnown graph ∧
          ∃ walks patterns,
            graph.closedWalks = .ok walks ∧
              (∀ walk ∈ walks, ∀ id ∈ walk, id ∈ graph.ids) ∧
              graph.patterns = .ok patterns ∧
              (∀ point ∈ patterns.entryPoints, point.file ∈ table.paths) ∧
              (∀ hub ∈ patterns.hubs, hub.file ∈ table.paths) ∧
              ∀ cycle ∈ patterns.cycles, ∀ file ∈ cycle.files, file ∈ table.paths := by
  have spec := build_spec resolve table
  cases built : build resolve table with
  | error fault =>
      rw [built] at spec
      exact spec
  | ok graph =>
      have contents : IsGraphOf resolve table graph := isGraphOf_of_build built
      have ends : EndsKnown graph := ends_mem_of_build built
      obtain ⟨walks, searched, closed, _⟩ := closedWalks_spec ends
      refine ⟨contents, ?_, ends, walks, _, searched, ?_,
        patterns_of_closedWalks searched, ?_, ?_, ?_⟩
      · rw [contents.stats]
        exact length_isolated_eq graph
      · intro walk walkMember id member
        obtain ⟨origin, link⟩ := (closed walk walkMember).entered id member
        exact (ends.of_links link).2
      · intro point member
        obtain ⟨node, nodeMember, named⟩ := mem_entryPoints member
        exact named ▸ contents.path_mem nodeMember
      · intro hub member
        obtain ⟨node, nodeMember, named⟩ := mem_hubs member
        exact named ▸ contents.path_mem nodeMember
      · intro cycle cycleMember file member
        obtain ⟨walk, _, rfl⟩ := List.mem_map.mp cycleMember
        obtain ⟨node, nodeMember, named⟩ := mem_files_cycleOf member
        exact named ▸ contents.path_mem nodeMember

end ModuleAtlas.Graph
