import Mathlib.Algebra.BigOperators.Group.Finset.Basic
import Mathlib.Algebra.Ring.Nat
import Mathlib.Data.Finset.Dedup
import ModuleAtlas.Proofs.GraphCycles
import ModuleAtlas.Proofs.GroupedLists

/-!
# The ranking of hubs

The hubs of a graph are its nodes with more ends of edges than a threshold, those
with most first and those with equally many in the order of the nodes.  Every
edge has two ends and each of them is a node's, so over all nodes the connections
are twice the edges.
-/

namespace ModuleAtlas.Graph

/-! ## Ends of edges -/

/-- How often a node is an end of an edge: once for every edge that leaves it and
once for every edge that enters it, so twice for an edge to itself. -/
def endsAt (edges : List Edge) (id : String) : Nat :=
  (edges.map (·.origin)).count id + (edges.map (·.target)).count id

theorem degree_eq_endsAt (edges : List Edge) (id : String) : degree edges id = endsAt edges id := by
  simp only [degree, outDegree, inDegree, endsAt, List.count, List.countP_map,
    ← List.countP_eq_length_filter]
  rfl

/-- Items that are all among different keys are counted once each by the keys. -/
theorem sum_map_count_of_subset
    {keys items : List String} (nodup : keys.Nodup) (known : ∀ item ∈ items, item ∈ keys) :
    (keys.map fun key => items.count key).sum = items.length := by
  have counted :
      ∑ key ∈ keys.toFinset, Multiset.count key (items : Multiset String) = items.length := by
    apply Multiset.sum_count_eq_card
    intro item member
    exact List.mem_toFinset.mpr (known item member)
  rw [List.sum_toFinset _ nodup] at counted
  simpa only [Multiset.coe_count] using counted

/-- Over all nodes of a graph, the ends of edges are twice as many as the edges. -/
theorem sum_endsAt
    {graph : Graph} (nodup : graph.ids.Nodup) (ends : EndsKnown graph) :
    (graph.ids.map (endsAt graph.edges)).sum = 2 * graph.edges.length := by
  have origins := @sum_map_count_of_subset graph.ids (graph.edges.map (·.origin)) nodup
    (List.forall_mem_map.mpr fun edge member => (ends edge member).1)
  have targets := @sum_map_count_of_subset graph.ids (graph.edges.map (·.target)) nodup
    (List.forall_mem_map.mpr fun edge member => (ends edge member).2)
  rw [List.length_map] at origins targets
  unfold endsAt
  rw [List.sum_map_add, origins, targets, Nat.two_mul]

/-! ## The ranking -/

/-- The node as a hub. -/
def hubOf (edges : List Edge) (node : Node) : Hub :=
  ⟨node.path, node.kind, endsAt edges node.id⟩

/-- The nodes with more ends of edges than the threshold, in their order, as hubs. -/
def hubsAbove (graph : Graph) (threshold : Int) : List Hub :=
  (graph.nodes.filter fun node => decide (threshold < (endsAt graph.edges node.id : Int))).map
    (hubOf graph.edges)

/-- Hubs are a ranking of the given ones: each of them once, those with most
connections first, and those with equally many in the given order. -/
structure IsRankingOf (ranked given : List Hub) : Prop where
  perm : ranked.Perm given
  descending : ranked.Pairwise fun left right => right.connections ≤ left.connections
  stable :
    ∀ count, (ranked.filter fun hub => hub.connections == count) =
      given.filter fun hub => hub.connections == count

theorem hubs_eq_mergeSort (graph : Graph) (threshold : Int) :
    hubs graph threshold =
      (hubsAbove graph threshold).mergeSort
        fun left right => decide (right.connections ≤ left.connections) := by
  unfold hubs hubsAbove hubOf
  simp only [degree_eq_endsAt, List.filter_map]
  rfl

/-- Sorting hubs by their connections ranks them. -/
theorem isRankingOf_mergeSort (given : List Hub) :
    IsRankingOf
      (given.mergeSort fun left right => decide (right.connections ≤ left.connections)) given := by
  have trans (first second third : Hub) :
      decide (second.connections ≤ first.connections) = true →
        decide (third.connections ≤ second.connections) = true →
          decide (third.connections ≤ first.connections) = true := by
    simp only [decide_eq_true_eq]
    intro before after
    exact Nat.le_trans after before
  have total (first second : Hub) :
      (decide (second.connections ≤ first.connections) ||
        decide (first.connections ≤ second.connections)) = true := by
    simpa using Nat.le_total second.connections first.connections
  refine ⟨List.mergeSort_perm given _, ?_, ?_⟩
  · exact (List.pairwise_mergeSort trans total given).imp fun test => of_decide_eq_true test
  · intro count
    apply filter_mergeSort_of_tied trans total
    rw [List.pairwise_filter]
    apply List.pairwise_of_forall
    intro left right leftCount rightCount
    rw [beq_iff_eq] at leftCount rightCount
    simp [leftCount, rightCount]

theorem hubsAbove_of_negative
    (graph : Graph) {threshold : Int} (negative : threshold < 0) :
    hubsAbove graph threshold = graph.nodes.map (hubOf graph.edges) := by
  unfold hubsAbove
  rw [List.filter_eq_self.mpr]
  intro node _
  rw [decide_eq_true_eq]
  omega

/-- The hubs of a graph with different identities and known ends are exactly the
nodes above the threshold, ranked by their connections.  A negative threshold
lets every node in, and then every edge is counted at both of its ends. -/
theorem hub_ranking_exact
    {graph : Graph} (nodup : graph.ids.Nodup) (ends : EndsKnown graph) (threshold : Int) :
    IsRankingOf (hubs graph threshold) (hubsAbove graph threshold) ∧
      (threshold < 0 →
        ((hubs graph threshold).map (·.connections)).sum = 2 * graph.edges.length) := by
  have ranking : IsRankingOf (hubs graph threshold) (hubsAbove graph threshold) := by
    rw [hubs_eq_mergeSort]
    exact isRankingOf_mergeSort _
  refine ⟨ranking, ?_⟩
  intro negative
  have sameSum := (ranking.perm.map (·.connections)).sum_eq
  have counted := sum_endsAt nodup ends
  rw [ids, List.map_map] at counted
  rw [sameSum, hubsAbove_of_negative graph negative, List.map_map]
  exact counted

def meetingNodes : List Node :=
  ["a.js", "b.js", "c.js", "d.js", "e.js"].map fun path => ⟨path, path, .unknown, path, 0, 0⟩

/-- Three files that are imported, one of them twice by the same file, and one
that imports itself; a fifth file stands alone. -/
def meetingGraph : Graph :=
  let edges := [("a.js", "b.js"), ("c.js", "c.js"), ("a.js", "b.js"), ("d.js", "c.js"),
    ("a.js", "d.js")].map fun ends => (⟨ends.1, ends.2, "./" ++ ends.2, "import"⟩ : Edge)
  ⟨meetingNodes, edges, statsOf meetingNodes edges⟩

theorem hub_ranking_exact_meeting :
    (meetingGraph.ids.Nodup ∧ EndsKnown meetingGraph) ∧
      IsRankingOf (hubs meetingGraph 1)
        [⟨"a.js", .unknown, 3⟩, ⟨"b.js", .unknown, 2⟩, ⟨"c.js", .unknown, 3⟩,
          ⟨"d.js", .unknown, 2⟩] ∧
      ((hubs meetingGraph (-1)).map (·.connections)).sum = 10 := by
  have nodup : meetingGraph.ids.Nodup := by decide
  have ends : EndsKnown meetingGraph := by
    unfold EndsKnown
    decide
  exact ⟨⟨nodup, ends⟩, (hub_ranking_exact nodup ends 1).1,
    (hub_ranking_exact nodup ends (-1)).2 (by decide)⟩

end ModuleAtlas.Graph
