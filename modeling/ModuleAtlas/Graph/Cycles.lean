import ModuleAtlas.Graph.Basic

/-!
# Cycles

Cycles by depth-first search. Every node is entered once; whenever an edge leads back to the path
that the search is on, the part of the path from there on is a cycle.
-/

namespace ModuleAtlas.Graph

/-- For every node, where its edges lead. -/
abbrev Adjacency := List (String × List String)

/-- A node that an edge mentions and the graph lacks. -/
structure UnknownNode where
  id : String
  deriving DecidableEq, Repr

/-- A node on the path of the search, with the targets that are still to be inspected. -/
structure Frame where
  node : String
  targets : List String
  deriving Repr

def unvisited (adjacency : Adjacency) (visited : List String) : Nat :=
  (adjacency.filter fun entry => !visited.contains entry.1).length

/-- What is left to do on the path itself. -/
def remaining : List Frame → Nat
  | [] => 0
  | frame :: rest => frame.targets.length + 1 + remaining rest

/-- The nodes of a path, its last one first. -/
def pathNodes (frames : List Frame) : List String :=
  frames.map (·.node)

/-- The closed walk from a node on the path along the path and back to it. The path's last node comes
first in `frames`. -/
def closedWalk (frames : List Frame) (target : String) : List String :=
  let behind := (pathNodes frames).takeWhile (· != target)
  target :: behind.reverse ++ [target]

theorem unvisited_lt {adjacency : Adjacency} {visited : List String} {target : String}
    {targets : List String} (known : adjacency.lookup target = some targets)
    (fresh : visited.contains target = false) :
    unvisited adjacency (target :: visited) < unvisited adjacency visited := by
  unfold unvisited
  induction adjacency with
  | nil => simp at known
  | cons entry rest inductionHypothesis =>
    have shrinks : ∀ others : Adjacency,
        (others.filter fun entry => !(target :: visited).contains entry.1).length ≤
          (others.filter fun entry => !visited.contains entry.1).length := by
      intro others
      induction others with
      | nil => simp
      | cons other more smaller =>
        simp only [List.filter_cons]
        by_cases seen : visited.contains other.1
        · have also : (target :: visited).contains other.1 = true := by
            simp only [List.contains_cons, seen, Bool.or_true]
          simp only [seen, also, Bool.not_true, Bool.false_eq_true, if_false]
          exact smaller
        · simp only [Bool.not_eq_true] at seen
          simp only [seen, Bool.not_false, if_true, List.length_cons]
          split
          · simp only [List.length_cons]
            omega
          · omega
    by_cases same : target == entry.1
    · have equal : target = entry.1 := by simpa using same
      have dropped : (target :: visited).contains entry.1 = true := by
        simp [equal]
      have kept : visited.contains entry.1 = false := by
        rw [← equal]
        exact fresh
      simp only [List.filter_cons, dropped, kept, Bool.not_true, Bool.not_false, if_true,
        Bool.false_eq_true, if_false, List.length_cons]
      exact Nat.lt_succ_of_le (shrinks rest)
    · have later : rest.lookup target = some targets := by
        obtain ⟨key, value⟩ := entry
        simp only [Bool.not_eq_true] at same
        simpa only [List.lookup_cons, same] using known
      have smaller := inductionHypothesis later
      have agree : (target :: visited).contains entry.1 = visited.contains entry.1 := by
        have different : (entry.1 == target) = false := by
          simp only [beq_eq_false_iff_ne, ne_eq]
          intro equal
          exact same (by simp [equal])
        simp only [List.contains_cons, different, Bool.false_or]
      simp only [List.filter_cons, agree]
      split
      · simp only [List.length_cons]
        omega
      · exact smaller

set_option linter.unusedVariables false in
/-- Searches on from a path. Answers the nodes entered and the closed walks found, last first. -/
def search (adjacency : Adjacency) (visited : List String) (frames : List Frame)
    (found : List (List String)) : Except UnknownNode (List String × List (List String)) :=
  match frames with
  | [] => .ok (visited, found)
  | ⟨_, []⟩ :: rest => search adjacency visited rest found
  | ⟨node, target :: targets⟩ :: rest =>
    if (node :: pathNodes rest).contains target then
      search adjacency visited (⟨node, targets⟩ :: rest)
        (closedWalk (⟨node, targets⟩ :: rest) target :: found)
    else if fresh : visited.contains target = false then
      match known : adjacency.lookup target with
      | none => .error ⟨target⟩
      | some next =>
        search adjacency (target :: visited) (⟨target, next⟩ :: ⟨node, targets⟩ :: rest) found
    else search adjacency visited (⟨node, targets⟩ :: rest) found
termination_by (unvisited adjacency visited, remaining frames)
decreasing_by
  · exact Prod.Lex.right _ (by simp [remaining])
  · exact Prod.Lex.right _ (by simp [remaining])
  · exact Prod.Lex.left _ _ (unvisited_lt known fresh)
  · exact Prod.Lex.right _ (by simp [remaining])

def searchAll (adjacency : Adjacency) :
    List String → List String → List (List String) → Except UnknownNode (List (List String))
  | [], _, found => .ok found.reverse
  | root :: roots, visited, found =>
    if visited.contains root then searchAll adjacency roots visited found
    else
      match adjacency.lookup root with
      | none => .error ⟨root⟩
      | some targets =>
        match search adjacency (root :: visited) [⟨root, targets⟩] found with
        | .error unknown => .error unknown
        | .ok (entered, walks) => searchAll adjacency roots entered walks

/-- Puts one more target behind those of a node. -/
def addTarget (adjacency : Adjacency) (edge : Edge) : Except UnknownNode Adjacency :=
  match adjacency.lookup edge.origin with
  | none => .error ⟨edge.origin⟩
  | some targets =>
    if targets.contains edge.target then .ok adjacency
    else .ok (Json.putField adjacency edge.origin (targets ++ [edge.target]))

/-- The adjacency of edges over the given nodes. A target is listed once, at its first edge. -/
def adjacencyOf (ids : List String) (edges : List Edge) : Except UnknownNode Adjacency :=
  edges.foldlM addTarget (ids.map fun id => (id, []))

def pathsOf (nodes : List Node) : List (String × String) :=
  nodes.foldl (fun known node => Json.putField known node.id node.path) []

def closedWalks (graph : Graph) : Except UnknownNode (List (List String)) := do
  let ids := (pathsOf graph.nodes).map (·.1)
  let adjacency ← adjacencyOf ids graph.edges
  searchAll adjacency ids [] []

end ModuleAtlas.Graph
