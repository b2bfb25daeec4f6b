import Mathlib.Data.List.Nodup
import ModuleAtlas.Graph.Basic
import ModuleAtlas.Graph.Resolution
import ModuleAtlas.Proofs.RecordedOutcomes

/-!
# Construction of graphs

The graph of a table has one node for every identity of a file, and one edge
for every import that leads to a file of the table.
-/

namespace ModuleAtlas.Graph

variable {ε : Type}

/-! ## Nodes -/

/-- A file adds its identity unless it is taken. -/
theorem ids_addNode (nodes : List Node) (file : String × Entry) :
    (addNode nodes file).map (·.id) =
      if nodeId file.1 ∈ nodes.map (·.id) then nodes.map (·.id)
      else nodes.map (·.id) ++ [nodeId file.1] := by
  have taken :
      (nodes.any fun node => node.id == nodeId file.1) = true ↔
        nodeId file.1 ∈ nodes.map (·.id) := by
    simp
  unfold addNode
  by_cases known : nodeId file.1 ∈ nodes.map (·.id)
  · rw [if_pos (taken.mpr known), if_pos known]
  · rw [if_neg (fun found => known (taken.mp found)), if_neg known, List.map_append]
    rfl

theorem mem_ids_foldl_addNode
    {files : List (String × Entry)} {nodes : List Node} {id : String} :
    id ∈ (files.foldl addNode nodes).map (·.id) ↔
      id ∈ nodes.map (·.id) ∨ ∃ file ∈ files, nodeId file.1 = id := by
  induction files generalizing nodes with
  | nil =>
      simp
  | cons file rest inductionHypothesis =>
      rw [List.foldl_cons, inductionHypothesis, ids_addNode,
        List.exists_mem_cons_iff, ← or_assoc]
      refine or_congr_left ?_
      split
      · next known =>
          constructor
          · exact Or.inl
          · intro given
            rcases given with member | equal
            · exact member
            · exact equal ▸ known
      · rw [List.mem_append, List.mem_singleton, @eq_comm String id]

theorem nodup_ids_foldl_addNode
    {files : List (String × Entry)} {nodes : List Node}
    (nodup : (nodes.map (·.id)).Nodup) :
    ((files.foldl addNode nodes).map (·.id)).Nodup := by
  induction files generalizing nodes with
  | nil =>
      exact nodup
  | cons file rest inductionHypothesis =>
      apply inductionHypothesis
      rw [ids_addNode]
      split
      · exact nodup
      · next absent =>
          exact nodup.append (List.nodup_singleton (nodeId file.1))
            (List.disjoint_singleton.mpr absent)

/-- The nodes of a table have the identities of its files. -/
theorem mem_ids_nodesOf {table : Table} {id : String} :
    id ∈ (nodesOf table).map (·.id) ↔
      ∃ file ∈ table.entries, nodeId file.1 = id := by
  have folded := @mem_ids_foldl_addNode table.entries [] id
  rw [List.map_nil, List.mem_nil_iff, false_or] at folded
  exact folded

/-- No two nodes of a table have the same identity. -/
theorem nodup_ids_nodesOf (table : Table) :
    ((nodesOf table).map (·.id)).Nodup :=
  nodup_ids_foldl_addNode List.nodup_nil

/-! ## Edges -/

/-- The edge of an import, if the import means a file whose identity is known. -/
def importEdge? (resolve : String → String → Except ε (Option String))
    (ids : List String) (path : String) (reference : Reference) : Option Edge :=
  match resolve reference.source path with
  | .ok (some file) =>
      if nodeId file ∈ ids then
        some ⟨nodeId path, nodeId file, reference.source, "import"⟩
      else none
  | _ => none

theorem importEdge?_eq_some_iff
    {resolve : String → String → Except ε (Option String)}
    {ids : List String} {path : String} {reference : Reference} {edge : Edge} :
    importEdge? resolve ids path reference = some edge ↔
      ∃ file, resolve reference.source path = .ok (some file) ∧
        nodeId file ∈ ids ∧
        edge = ⟨nodeId path, nodeId file, reference.source, "import"⟩ := by
  unfold importEdge?
  cases resolve reference.source path with
  | error fault =>
      simp
  | ok outcome =>
      cases outcome with
      | none =>
          simp
      | some file =>
          simp [eq_comm]

/-- The edges of one file are those of its imports, in their order, unless one
of them cannot be resolved. -/
theorem edgesOfImports_spec
    (resolve : String → String → Except ε (Option String))
    (ids : List String) (path : String) (references : List Reference) :
    match edgesOfImports resolve ids path references with
    | .error fault =>
        ∃ reference ∈ references, resolve reference.source path = .error fault
    | .ok edges =>
        edges = references.filterMap (importEdge? resolve ids path) := by
  induction references with
  | nil =>
      rfl
  | cons reference rest inductionHypothesis =>
      cases resolved : resolve reference.source path with
      | error fault =>
          simp [edgesOfImports, resolved, bind, Except.bind]
      | ok outcome =>
          cases others : edgesOfImports resolve ids path rest with
          | error fault =>
              rw [others] at inductionHypothesis
              obtain ⟨later, member, failed⟩ := inductionHypothesis
              simp only [edgesOfImports, resolved, others, bind, Except.bind]
              exact ⟨later, List.mem_cons_of_mem reference member, failed⟩
          | ok edges =>
              rw [others] at inductionHypothesis
              cases outcome with
              | none =>
                  simp [edgesOfImports, importEdge?, resolved, others, bind,
                    Except.bind, pure, Except.pure, inductionHypothesis]
              | some file =>
                  by_cases known : nodeId file ∈ ids
                  · simp [edgesOfImports, importEdge?, resolved, others, bind,
                      Except.bind, pure, Except.pure, inductionHypothesis, known]
                  · simp [edgesOfImports, importEdge?, resolved, others, bind,
                      Except.bind, pure, Except.pure, inductionHypothesis, known]

/-- The edges of all files, in the order of the files, unless an import cannot
be resolved. -/
theorem edgesOf_spec
    (resolve : String → String → Except ε (Option String))
    (ids : List String) (files : List (String × Entry)) :
    match edgesOf resolve ids files with
    | .error fault =>
        ∃ file ∈ files, ∃ reference ∈ file.2.imports,
          resolve reference.source file.1 = .error fault
    | .ok edges =>
        edges = files.flatMap fun file =>
          file.2.imports.filterMap (importEdge? resolve ids file.1) := by
  induction files with
  | nil =>
      rfl
  | cons file rest inductionHypothesis =>
      obtain ⟨path, entry⟩ := file
      have ownEdges := edgesOfImports_spec resolve ids path entry.imports
      cases own : edgesOfImports resolve ids path entry.imports with
      | error fault =>
          rw [own] at ownEdges
          obtain ⟨reference, member, failed⟩ := ownEdges
          simp only [edgesOf, own, bind, Except.bind]
          exact ⟨(path, entry), List.mem_cons_self, reference, member, failed⟩
      | ok edges =>
          rw [own] at ownEdges
          cases others : edgesOf resolve ids rest with
          | error fault =>
              rw [others] at inductionHypothesis
              obtain ⟨later, member, failed⟩ := inductionHypothesis
              simp only [edgesOf, own, others, bind, Except.bind]
              exact ⟨later, List.mem_cons_of_mem (path, entry) member, failed⟩
          | ok more =>
              rw [others] at inductionHypothesis
              simp only [edgesOf, own, others, bind, Except.bind, pure,
                Except.pure, List.flatMap_cons]
              rw [ownEdges, inductionHypothesis]

/-- The edges of one file are known only if each of its imports can be
resolved. -/
theorem resolves_of_edgesOfImports
    {resolve : String → String → Except ε (Option String)}
    {ids : List String} {path : String} {references : List Reference} {edges : List Edge}
    (known : edgesOfImports resolve ids path references = .ok edges) :
    ∀ reference ∈ references, ∃ answer, resolve reference.source path = .ok answer := by
  induction references generalizing edges with
  | nil =>
      simp
  | cons reference rest inductionHypothesis =>
      obtain ⟨answer, own, known⟩ := bind_eq_ok_iff.mp known
      obtain ⟨others, further, _⟩ := bind_eq_ok_iff.mp known
      exact List.forall_mem_cons.mpr ⟨⟨answer, own⟩, inductionHypothesis further⟩

theorem resolves_of_edgesOf
    {resolve : String → String → Except ε (Option String)}
    {ids : List String} {files : List (String × Entry)} {edges : List Edge}
    (known : edgesOf resolve ids files = .ok edges) :
    ∀ file ∈ files, ∀ reference ∈ file.2.imports,
      ∃ answer, resolve reference.source file.1 = .ok answer := by
  induction files generalizing edges with
  | nil =>
      simp
  | cons file rest inductionHypothesis =>
      obtain ⟨own, ownKnown, known⟩ := bind_eq_ok_iff.mp known
      obtain ⟨others, further, _⟩ := bind_eq_ok_iff.mp known
      exact List.forall_mem_cons.mpr
        ⟨resolves_of_edgesOfImports ownKnown, inductionHypothesis further⟩

/-! ## The whole graph -/

/-- The graph of a table, unless an import cannot be resolved. -/
theorem build_spec
    (resolve : String → String → Except ε (Option String)) (table : Table) :
    match build resolve table with
    | .error fault =>
        ∃ file ∈ table.entries, ∃ reference ∈ file.2.imports,
          resolve reference.source file.1 = .error fault
    | .ok graph =>
        graph.nodes = nodesOf table ∧
          (graph.edges = table.entries.flatMap fun file =>
            file.2.imports.filterMap
              (importEdge? resolve ((nodesOf table).map (·.id)) file.1)) ∧
          graph.stats = statsOf graph.nodes graph.edges := by
  have edgesSpec := edgesOf_spec resolve ((nodesOf table).map (·.id)) table.entries
  cases found : edgesOf resolve ((nodesOf table).map (·.id)) table.entries with
  | error fault =>
      rw [found] at edgesSpec
      simpa only [build, found, bind, Except.bind] using edgesSpec
  | ok edges =>
      rw [found] at edgesSpec
      simp only [build, found, bind, Except.bind, pure, Except.pure]
      exact ⟨trivial, edgesSpec, trivial⟩

/-- A graph is built only if every import of every file can be resolved. -/
theorem resolves_of_build
    {resolve : String → String → Except ε (Option String)} {table : Table}
    {graph : Graph} (built : build resolve table = .ok graph) :
    ∀ file ∈ table.entries, ∀ reference ∈ file.2.imports,
      ∃ answer, resolve reference.source file.1 = .ok answer := by
  obtain ⟨edges, known, _⟩ := bind_eq_ok_iff.mp built
  exact resolves_of_edgesOf known

/-- The edges of a graph that was built are the imports that lead to a file of
the table. -/
theorem mem_edges_of_build
    {resolve : String → String → Except ε (Option String)} {table : Table}
    {graph : Graph} (built : build resolve table = .ok graph) {edge : Edge} :
    edge ∈ graph.edges ↔
      ∃ importer ∈ table.entries, ∃ reference ∈ importer.2.imports, ∃ file,
        resolve reference.source importer.1 = .ok (some file) ∧
          (∃ known ∈ table.entries, nodeId known.1 = nodeId file) ∧
          edge = ⟨nodeId importer.1, nodeId file, reference.source, "import"⟩ := by
  have spec := build_spec resolve table
  rw [built] at spec
  rw [spec.2.1]
  simp only [List.mem_flatMap, List.mem_filterMap, importEdge?_eq_some_iff,
    mem_ids_nodesOf]

/-- Both ends of every edge of a graph that was built are nodes of it. -/
theorem ends_mem_of_build
    {resolve : String → String → Except ε (Option String)} {table : Table}
    {graph : Graph} (built : build resolve table = .ok graph) :
    ∀ edge ∈ graph.edges, edge.origin ∈ graph.ids ∧ edge.target ∈ graph.ids := by
  have spec := build_spec resolve table
  rw [built] at spec
  intro edge member
  obtain ⟨importer, importerMember, reference, _, file, _, known, rfl⟩ :=
    (mem_edges_of_build built).mp member
  rw [ids, spec.1]
  exact ⟨mem_ids_nodesOf.mpr ⟨importer, importerMember, rfl⟩,
    mem_ids_nodesOf.mpr known⟩

end ModuleAtlas.Graph

namespace ModuleAtlas.Resolution

variable {ε : Type}

/-- Going through candidates for a file comes to one of them: those before it
are no files. -/
def ComesTo (isFile : String → Except ε Bool) (candidates : List String) (place : String) :
    Prop :=
  ∃ before behind, candidates = before ++ place :: behind ∧
    ∀ other ∈ before, isFile other = .ok false

theorem comesTo_cons_iff
    {isFile : String → Except ε Bool} {candidate place : String} {rest : List String} :
    ComesTo isFile (candidate :: rest) place ↔
      place = candidate ∨ isFile candidate = .ok false ∧ ComesTo isFile rest place := by
  constructor
  · rintro ⟨before, behind, shape, misses⟩
    cases before with
    | nil =>
        exact Or.inl (List.cons.inj shape).1.symm
    | cons first more =>
        obtain ⟨rfl, others⟩ := List.cons.inj shape
        obtain ⟨miss, misses⟩ := List.forall_mem_cons.mp misses
        exact Or.inr ⟨miss, more, behind, others, misses⟩
  · rintro (rfl | ⟨miss, before, behind, rfl, misses⟩)
    · exact ⟨[], rest, rfl, by simp⟩
    · exact ⟨candidate :: before, behind, rfl, List.forall_mem_cons.mpr ⟨miss, misses⟩⟩

/-- Looking for files fails with a fault of a candidate that it comes to. -/
theorem firstFile_eq_error_iff
    {isFile : String → Except ε Bool} {candidates : List String} {fault : ε} :
    firstFile isFile candidates = .error fault ↔
      ∃ place, ComesTo isFile candidates place ∧ isFile place = .error fault := by
  induction candidates with
  | nil =>
      simp [firstFile, ComesTo]
  | cons candidate rest inductionHypothesis =>
      simp only [comesTo_cons_iff, or_and_right, exists_or, exists_eq_left, and_assoc]
      cases looked : isFile candidate with
      | error other =>
          simp [firstFile, looked]
      | ok found =>
          cases found with
          | true => simp [firstFile, looked]
          | false => simp [firstFile, looked, inductionHypothesis]

/-- The resolution of an import looks at a place of the project. -/
structure LooksAt (isFile : String → Except ε Bool) (source importer place : String) :
    Prop where
  relative : isRelative source = true
  inside : climbs (target source importer) = false
  comes : ComesTo isFile (candidates (target source importer)) place

theorem resolve_eq_error_iff
    {isFile : String → Except ε Bool} {source importer : String} {fault : ε} :
    resolve isFile source importer = .error fault ↔
      ∃ place, LooksAt isFile source importer place ∧ isFile place = .error fault := by
  unfold resolve
  cases relative : isRelative source with
  | false =>
      simp only [Bool.not_false, if_true, reduceCtorEq, false_iff]
      rintro ⟨place, looks, _⟩
      rw [looks.relative] at relative
      cases relative
  | true =>
      simp only [Bool.not_true, Bool.false_eq_true, if_false]
      cases outside : climbs (target source importer) with
      | true =>
          simp only [if_true, reduceCtorEq, false_iff]
          rintro ⟨place, looks, _⟩
          rw [looks.inside] at outside
          cases outside
      | false =>
          simp only [Bool.false_eq_true, if_false, firstFile_eq_error_iff]
          refine exists_congr fun place => and_congr_left fun _ => ?_
          exact ⟨fun comes => ⟨relative, outside, comes⟩, fun looks => looks.comes⟩

/-- Resolution fails only where looking for a file fails. -/
theorem resolve_error
    {isFile : String → Except ε Bool} {source importer : String} {fault : ε}
    (failed : resolve isFile source importer = .error fault) :
    ∃ path, isFile path = .error fault := by
  obtain ⟨place, _, raised⟩ := resolve_eq_error_iff.mp failed
  exact ⟨place, raised⟩

end ModuleAtlas.Resolution
