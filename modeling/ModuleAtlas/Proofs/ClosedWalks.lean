import Mathlib.Data.Set.Function
import ModuleAtlas.Proofs.CycleOrder

/-!
# Closed walks

Laws of walks that hold for every relation that they may follow.  Walks keep
their shape when nodes are renamed, as long as no two nodes get one name, and
the nodes of a closed walk reach each other.
-/

namespace ModuleAtlas.Graph

open Relation

/-! ## Renamed walks -/

section Renaming

variable {edge renamedEdge : String → String → Prop} {rename : String → String}
  {known : Set String} (injective : Set.InjOn rename known)

include injective

theorem IsClosedWalk.map
    {walk : List String} (closed : IsClosedWalk edge walk)
    (walkKnown : ∀ node ∈ walk, node ∈ known)
    (kept : ∀ origin target, edge origin target → renamedEdge (rename origin) (rename target)) :
    IsClosedWalk renamedEdge (walk.map rename) := by
  obtain ⟨first, between, rfl, distinct, chain⟩ := closed
  refine ⟨rename first, between.map rename, by simp, ?_, ?_⟩
  · rw [← List.map_cons]
    refine distinct.map_on ?_
    intro node member other otherMember same
    exact injective (walkKnown node (List.mem_append_left _ member))
      (walkKnown other (List.mem_append_left _ otherMember)) same
  · rw [List.isChain_map]
    exact chain.imp kept

theorem HasStep.of_map
    {walk : List String} {origin target : String} (walkKnown : ∀ node ∈ walk, node ∈ known)
    (originKnown : origin ∈ known) (targetKnown : target ∈ known)
    (step : HasStep (walk.map rename) (rename origin) (rename target)) :
    HasStep walk origin target := by
  obtain ⟨pair, taken, shape⟩ := List.infix_map_iff.mp step
  obtain ⟨first, rest, rfl, firstNamed, restShape⟩ := List.map_eq_cons_iff.mp shape.symm
  obtain ⟨second, others, rfl, secondNamed, othersShape⟩ := List.map_eq_cons_iff.mp restShape
  obtain rfl := List.map_eq_nil_iff.mp othersShape
  obtain ⟨firstMember, secondMember⟩ := HasStep.mem taken
  rw [injective originKnown (walkKnown first firstMember) firstNamed.symm,
    injective targetKnown (walkKnown second secondMember) secondNamed.symm]
  exact taken

theorem HasStep.carry
    {first second : List String} {origin target : String}
    (firstKnown : ∀ node ∈ first, node ∈ known) (secondKnown : ∀ node ∈ second, node ∈ known)
    (same : SameSteps (first.map rename) (second.map rename))
    (step : HasStep first origin target) :
    HasStep second origin target := by
  obtain ⟨originMember, targetMember⟩ := step.mem
  have renamed : HasStep (second.map rename) (rename origin) (rename target) :=
    (same _ _).mp (List.IsInfix.map rename step)
  exact renamed.of_map injective secondKnown (firstKnown origin originMember)
    (firstKnown target targetMember)

/-- Walks with the same steps once they are renamed had them before. -/
theorem SameSteps.of_map
    {first second : List String}
    (firstKnown : ∀ node ∈ first, node ∈ known) (secondKnown : ∀ node ∈ second, node ∈ known)
    (same : SameSteps (first.map rename) (second.map rename)) :
    SameSteps first second := by
  intro origin target
  constructor
  · exact HasStep.carry injective firstKnown secondKnown same
  · exact HasStep.carry injective secondKnown firstKnown same.symm

/-- A way along renamed edges is the renaming of a way along the edges. -/
theorem exists_transGen_of_renamed
    (ends : ∀ origin target, edge origin target → origin ∈ known ∧ target ∈ known)
    (comes : ∀ first second, renamedEdge first second →
      ∃ origin target, edge origin target ∧ rename origin = first ∧ rename target = second)
    {first last : String} (way : TransGen renamedEdge first last) :
    ∃ origin target, origin ∈ known ∧ target ∈ known ∧ TransGen edge origin target ∧
      rename origin = first ∧ rename target = last := by
  induction way with
  | single step =>
      obtain ⟨origin, target, inner, rfl, rfl⟩ := comes _ _ step
      obtain ⟨originKnown, targetKnown⟩ := ends origin target inner
      exact ⟨origin, target, originKnown, targetKnown, TransGen.single inner, rfl, rfl⟩
  | tail _ step inductionHypothesis =>
      obtain ⟨origin, middle, originKnown, middleKnown, before, rfl, meets⟩ :=
        inductionHypothesis
      obtain ⟨leaver, target, inner, leaverNamed, rfl⟩ := comes _ _ step
      obtain ⟨leaverKnown, targetKnown⟩ := ends leaver target inner
      have same : middle = leaver :=
        injective middleKnown leaverKnown (meets.trans leaverNamed.symm)
      subst same
      exact ⟨origin, target, originKnown, targetKnown, before.tail inner, rfl, rfl⟩

/-- A circle along renamed edges is the renaming of a circle. -/
theorem exists_cycle_of_renamed
    (ends : ∀ origin target, edge origin target → origin ∈ known ∧ target ∈ known)
    (comes : ∀ first second, renamedEdge first second →
      ∃ origin target, edge origin target ∧ rename origin = first ∧ rename target = second)
    {first : String} (cycle : TransGen renamedEdge first first) :
    ∃ node, TransGen edge node node ∧ rename node = first := by
  obtain ⟨origin, target, originKnown, targetKnown, way, rfl, back⟩ :=
    exists_transGen_of_renamed injective ends comes cycle
  have same : target = origin := injective targetKnown originKnown back
  subst same
  exact ⟨target, way, rfl⟩

end Renaming

theorem Closes.map
    {walks : List (List String)} {origin target : String} (rename : String → String)
    (closes : Closes walks origin target) :
    Closes (walks.map (List.map rename)) (rename origin) (rename target) := by
  obtain ⟨walk, member, initial, rfl⟩ := closes
  exact ⟨_, List.mem_map.mpr ⟨_, member, rfl⟩, initial.map rename, by simp⟩

/-! ## Walks within a component -/

/-- On a closed walk every node is reached from every other. -/
theorem IsClosedWalk.reaches
    {edge : String → String → Prop} {walk : List String} (closed : IsClosedWalk edge walk) :
    ∀ node ∈ walk, ∀ other ∈ walk, ReflTransGen edge node other := by
  obtain ⟨first, between, shape, _, chain⟩ := closed
  have along : walk.Pairwise (ReflTransGen edge) := by
    have steps : walk.IsChain (ReflTransGen edge) := chain.imp fun _ _ => ReflTransGen.single
    exact List.isChain_iff_pairwise.mp steps
  rw [shape] at along
  have toFirst : ∀ node ∈ walk, ReflTransGen edge node first := by
    intro node member
    rw [shape] at member
    rcases List.mem_append.mp member with inner | last
    · exact (List.pairwise_append.mp along).2.2 node inner first (List.mem_singleton.mpr rfl)
    · rw [List.mem_singleton.mp last]
  have fromFirst : ∀ node ∈ walk, ReflTransGen edge first node := by
    intro node member
    rw [shape, List.cons_append, List.mem_cons] at member
    rcases member with rfl | later
    · exact ReflTransGen.refl
    · exact (List.pairwise_cons.mp along).1 node later
  intro node member other otherMember
  exact (toFirst node member).trans (fromFirst other otherMember)

/-- A way on which all edges are open, or one that comes by an edge that closes
a walk. -/
theorem open_or_closes_of_transGen
    {edge : String → String → Prop} {walks : List (List String)} {first last : String}
    (way : TransGen edge first last) :
    TransGen (OpenEdge edge walks) first last ∨
      ∃ origin target, Closes walks origin target ∧ edge origin target ∧
        ReflTransGen edge first origin ∧ ReflTransGen edge target last := by
  induction way with
  | @single last step =>
      by_cases closes : Closes walks first last
      · exact Or.inr ⟨_, _, closes, step, ReflTransGen.refl, ReflTransGen.refl⟩
      · exact Or.inl (TransGen.single ⟨step, closes⟩)
  | @tail middle last before step inductionHypothesis =>
      rcases inductionHypothesis with allOpen | ⟨origin, target, closes, closer, up, down⟩
      · by_cases closes : Closes walks middle last
        · exact Or.inr ⟨_, _, closes, step, before.to_reflTransGen, ReflTransGen.refl⟩
        · exact Or.inl (allOpen.tail ⟨step, closes⟩)
      · exact Or.inr ⟨origin, target, closes, closer, up, down.tail step⟩

/-- Where the open edges have no cycle, one of the walks lies in the component
of every node on a cycle. -/
theorem exists_walk_in_component
    {edge : String → String → Prop} {walks : List (List String)} {node : String}
    (closed : ∀ walk ∈ walks, IsClosedWalk edge walk)
    (acyclic : ∀ node, ¬ TransGen (OpenEdge edge walks) node node)
    (cycle : TransGen edge node node) :
    ∃ walk ∈ walks, ∀ other ∈ walk,
      ReflTransGen edge node other ∧ ReflTransGen edge other node := by
  rcases open_or_closes_of_transGen cycle with allOpen | ⟨origin, target, closes, step, up, down⟩
  · exact absurd allOpen (acyclic node)
  · obtain ⟨walk, member, initial, shape⟩ := closes
    have onWalk : origin ∈ walk := by
      rw [shape]
      simp
    have around := (closed walk member).reaches
    refine ⟨walk, member, ?_⟩
    intro other otherMember
    have back : ReflTransGen edge origin node := (ReflTransGen.single step).trans down
    exact ⟨up.trans (around origin onWalk other otherMember),
      (around other otherMember origin onWalk).trans back⟩

end ModuleAtlas.Graph
