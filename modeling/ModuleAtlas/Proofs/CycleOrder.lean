import Mathlib.Data.List.Infix
import Mathlib.Data.List.Rotate
import ModuleAtlas.Proofs.CycleSearch

/-!
# The order in which the search enters nodes

The search enters no node twice, so the nodes entered stand in an order.  Along
the path of the search this order goes up, and an edge that closes a walk goes
back to a node entered before, or to the one that it leaves.  A closed walk
therefore has exactly one step that does not go up, its last one.

No edge is inspected twice either, so no edge closes two walks.  The two facts
together tell closed walks apart by their steps alone, wherever they begin.
-/

namespace ModuleAtlas.Graph

/-! ## Steps of walks -/

/-- The walk goes from `origin` straight to `target`. -/
def HasStep (walk : List String) (origin target : String) : Prop :=
  [origin, target] <:+: walk

/-- The last step of the walk goes from `origin` to `target`. -/
def EndsBy (walk : List String) (origin target : String) : Prop :=
  [origin, target] <:+ walk

/-- The two walks have the same set of steps. -/
def SameSteps (first second : List String) : Prop :=
  ∀ origin target, HasStep first origin target ↔ HasStep second origin target

theorem HasStep.mem
    {walk : List String} {origin target : String} (step : HasStep walk origin target) :
    origin ∈ walk ∧ target ∈ walk :=
  ⟨step.subset List.mem_cons_self, step.subset (by simp)⟩

theorem SameSteps.symm {first second : List String} (same : SameSteps first second) :
    SameSteps second first :=
  fun origin target => (same origin target).symm

theorem endsBy_append_iff
    {initial : List String} {origin target last closer : String} :
    EndsBy (initial ++ [last, closer]) origin target ↔
      origin = last ∧ target = closer := by
  constructor
  · intro ends
    have same : [origin, target] <:+ [last, closer] :=
      List.suffix_of_suffix_length_le ends (List.suffix_append initial _) (by simp)
    simpa using same.eq_of_length rfl
  · rintro ⟨rfl, rfl⟩
    exact List.suffix_append initial _

theorem hasStep_cons_cons_iff
    {head next origin target : String} {rest : List String} :
    HasStep (head :: next :: rest) origin target ↔
      (origin = head ∧ target = next) ∨ HasStep (next :: rest) origin target := by
  simp only [HasStep]
  rw [List.infix_cons_iff, List.cons_prefix_cons, List.cons_prefix_cons]
  simp

theorem hasStep_concat_iff
    {walk : List String} {last origin target : String} :
    HasStep (walk ++ [last]) origin target ↔
      EndsBy (walk ++ [last]) origin target ∨ HasStep walk origin target :=
  List.infix_concat_iff

theorem closes_iff
    {walks : List (List String)} {origin target : String} :
    Closes walks origin target ↔ ∃ walk ∈ walks, EndsBy walk origin target := by
  constructor
  · rintro ⟨walk, member, initial, shape⟩
    exact ⟨walk, member, initial, shape.symm⟩
  · rintro ⟨walk, member, initial, shape⟩
    exact ⟨walk, member, initial, shape.symm⟩

/-- The walk along the nodes and from the last of them back to the first. -/
def closing (nodes : List String) : List String :=
  nodes ++ nodes.head?.toList

/-- A closed walk has the same steps wherever it begins. -/
theorem sameSteps_closing_rotate (nodes : List String) (count : Nat) :
    SameSteps (closing nodes) (closing (nodes.rotate count)) := by
  induction count generalizing nodes with
  | zero =>
      simp [SameSteps]
  | succ count inductionHypothesis =>
      match nodes with
      | [] =>
          simp [SameSteps]
      | [node] =>
          simp [SameSteps]
      | first :: second :: rest =>
          intro origin target
          rw [List.rotate_cons_succ, ← inductionHypothesis]
          -- The step from the first node to the second one moves to the end.
          have before : closing (first :: second :: rest) =
              first :: second :: (rest ++ [first]) := by
            simp [closing]
          have after : closing (second :: rest ++ [first]) =
              (second :: (rest ++ [first])) ++ [second] := by
            simp [closing]
          have last : second :: (rest ++ [first]) ++ [second] =
              (second :: rest) ++ [first, second] := by
            simp
          rw [before, after, hasStep_cons_cons_iff, hasStep_concat_iff, last, endsBy_append_iff]

theorem IsClosedWalk.eq_closing
    {edge : String → String → Prop} {walk : List String} (closed : IsClosedWalk edge walk) :
    walk = closing walk.dropLast := by
  obtain ⟨first, between, shape, _, _⟩ := closed
  rw [shape, List.dropLast_concat]
  rfl

/-- Closed walks through the same nodes in the same circular order have the
same steps. -/
theorem IsClosedWalk.sameSteps
    {edge other : String → String → Prop} {first second : List String}
    (closed : IsClosedWalk edge first) (otherClosed : IsClosedWalk other second)
    (rotated : first.dropLast ~r second.dropLast) :
    SameSteps first second := by
  obtain ⟨count, equal⟩ := rotated
  rw [closed.eq_closing, otherClosed.eq_closing, ← equal]
  exact sameSteps_closing_rotate first.dropLast count

/-! ## Orders -/

/-- Of nodes entered, the last one first, `earlier` was entered before
`later`. -/
def EnteredBefore (visited : List String) (earlier later : String) : Prop :=
  [later, earlier].Sublist visited

theorem EnteredBefore.ne
    {visited : List String} {earlier later : String} (distinct : visited.Nodup)
    (before : EnteredBefore visited earlier later) :
    earlier ≠ later := by
  have pair : [later, earlier].Nodup := distinct.sublist before
  rintro rfl
  simp at pair

theorem EnteredBefore.asymm
    {visited : List String} {earlier later : String} (distinct : visited.Nodup)
    (before : EnteredBefore visited earlier later) :
    ¬ EnteredBefore visited later earlier := by
  induction visited with
  | nil =>
      simp [EnteredBefore]
  | cons node rest inductionHypothesis =>
      obtain ⟨fresh, restDistinct⟩ := List.nodup_cons.mp distinct
      have inRest : ∀ {first second : String}, [first, second].Sublist rest →
          first ∈ rest ∧ second ∈ rest := by
        intro first second pair
        exact ⟨pair.subset List.mem_cons_self, pair.subset (by simp)⟩
      intro after
      rcases List.sublist_cons_iff.mp before with old | ⟨_, shape, _⟩
      · rcases List.sublist_cons_iff.mp after with older | ⟨_, shape, _⟩
        · exact inductionHypothesis restDistinct old older
        · cases shape
          exact fresh (inRest old).2
      · cases shape
        rcases List.sublist_cons_iff.mp after with older | ⟨_, shape, later⟩
        · exact fresh (inRest older).2
        · cases shape
          exact fresh (List.singleton_sublist.mp later)

/-- The walk comes back to its first node, and up to then it goes from nodes
entered before to nodes entered later. -/
def Ascends (visited walk : List String) : Prop :=
  ∃ first between,
    walk = (first :: between) ++ [first] ∧
      (first :: between).reverse.Sublist visited

theorem Ascends.mono
    {visited more walk : List String} (kept : visited.Sublist more)
    (ascends : Ascends visited walk) :
    Ascends more walk := by
  obtain ⟨first, between, shape, upward⟩ := ascends
  exact ⟨first, between, shape, upward.trans kept⟩

/-- A step of such a walk goes up, unless it is the last one. -/
theorem Ascends.enteredBefore_or_endsBy
    {visited walk : List String} {origin target : String}
    (ascends : Ascends visited walk) (step : HasStep walk origin target) :
    EnteredBefore visited origin target ∨ EndsBy walk origin target := by
  obtain ⟨first, between, rfl, upward⟩ := ascends
  rcases hasStep_concat_iff.mp step with last | inner
  · exact Or.inr last
  · have reversed : [target, origin].Sublist (first :: between).reverse := by
      simpa using inner.sublist.reverse
    exact Or.inl (reversed.trans upward)

/-- The last step of such a walk leaves a node entered, and it goes down or
stays there. -/
theorem Ascends.exists_last
    {visited walk : List String} (ascends : Ascends visited walk) :
    ∃ initial last first,
      walk = initial ++ [last, first] ∧ last ∈ visited ∧
        (last = first ∨ EnteredBefore visited first last) := by
  obtain ⟨first, between, rfl, upward⟩ := ascends
  rcases between.eq_nil_or_concat' with rfl | ⟨inner, last, rfl⟩
  · exact ⟨[], first, first, rfl, upward.subset (by simp), Or.inl rfl⟩
  · have downward : [last, first].Sublist (first :: (inner ++ [last])).reverse := by
      simp
    exact ⟨first :: inner, last, first, by simp, upward.subset (by simp),
      Or.inr (downward.trans upward)⟩

theorem Ascends.not_enteredBefore
    {visited walk : List String} {origin target : String} (distinct : visited.Nodup)
    (ascends : Ascends visited walk) (ends : EndsBy walk origin target) :
    ¬ EnteredBefore visited origin target := by
  obtain ⟨initial, last, first, rfl, _, atLast⟩ := ascends.exists_last
  obtain ⟨rfl, rfl⟩ := endsBy_append_iff.mp ends
  rcases atLast with rfl | downward
  · exact fun before => before.ne distinct rfl
  · exact downward.asymm distinct

theorem Ascends.origin_mem
    {visited walk : List String} {origin target : String}
    (ascends : Ascends visited walk) (ends : EndsBy walk origin target) :
    origin ∈ visited := by
  obtain ⟨initial, last, first, rfl, entered, _⟩ := ascends.exists_last
  obtain ⟨rfl, rfl⟩ := endsBy_append_iff.mp ends
  exact entered

/-- Two such walks with the same steps end by the same step. -/
theorem Ascends.endsBy_of_sameSteps
    {visited first second : List String} (distinct : visited.Nodup)
    (ascends : Ascends visited first) (otherAscends : Ascends visited second)
    (same : SameSteps first second) :
    ∃ origin target, EndsBy first origin target ∧ EndsBy second origin target := by
  obtain ⟨initial, origin, target, shape, _⟩ := ascends.exists_last
  have ends : EndsBy first origin target := ⟨initial, shape.symm⟩
  have taken : HasStep second origin target := (same origin target).mp ends.isInfix
  rcases otherAscends.enteredBefore_or_endsBy taken with before | otherEnds
  · exact absurd before (ascends.not_enteredBefore distinct ends)
  · exact ⟨origin, target, ends, otherEnds⟩

/-! ## What a run preserves -/

/-- The adjacency lists no target of a node twice. -/
def TargetsDistinct (adjacency : Adjacency) : Prop :=
  ∀ origin targets, adjacency.lookup origin = some targets → targets.Nodup

namespace Progress

/-- What holds of the order of the nodes wherever the search stands. -/
structure Ordered (progress : Progress) : Prop where
  distinct : progress.visited.Nodup
  path : (pathNodes progress.frames).Sublist progress.visited
  targets : ∀ frame ∈ progress.frames, frame.targets.Nodup
  uninspected :
    ∀ frame ∈ progress.frames, ∀ target ∈ frame.targets,
      ¬ Closes progress.found frame.node target
  ascends : ∀ walk ∈ progress.found, Ascends progress.visited walk
  once :
    progress.found.Pairwise fun first second =>
      ∀ origin target, EndsBy first origin target → ¬ EndsBy second origin target

theorem ordered_initial : Ordered ⟨[], [], []⟩ where
  distinct := List.nodup_nil
  path := List.Sublist.refl []
  targets := by simp
  uninspected := by simp
  ascends := by simp
  once := List.Pairwise.nil

namespace Ordered

variable {visited targets : List String} {frames rest : List Frame}
  {found : List (List String)} {node target : String}

/-- A node that is entered becomes the last one of the path. -/
theorem push
    (ordered : Ordered ⟨visited, frames, found⟩) (fresh : node ∉ visited)
    (once : targets.Nodup) :
    Ordered ⟨node :: visited, ⟨node, targets⟩ :: frames, found⟩ where
  distinct := List.nodup_cons.mpr ⟨fresh, ordered.distinct⟩
  path := ordered.path.cons_cons node
  targets := List.forall_mem_cons.mpr ⟨once, ordered.targets⟩
  uninspected := by
    refine List.forall_mem_cons.mpr ⟨?_, ordered.uninspected⟩
    intro target _ closes
    -- Edges that close a walk leave nodes that were entered before.
    obtain ⟨walk, member, ends⟩ := closes_iff.mp closes
    exact fresh ((ordered.ascends walk member).origin_mem ends)
  ascends := by
    intro walk member
    exact (ordered.ascends walk member).mono (List.sublist_cons_self node visited)
  once := ordered.once

/-- The last node of the path is left. -/
theorem pop
    (ordered : Ordered ⟨visited, ⟨node, targets⟩ :: rest, found⟩) :
    Ordered ⟨visited, rest, found⟩ where
  distinct := ordered.distinct
  path := (List.sublist_cons_self node _).trans ordered.path
  targets := (List.forall_mem_cons.mp ordered.targets).2
  uninspected := (List.forall_mem_cons.mp ordered.uninspected).2
  ascends := ordered.ascends
  once := ordered.once

/-- A target is inspected. -/
theorem inspect
    (ordered : Ordered ⟨visited, ⟨node, target :: targets⟩ :: rest, found⟩) :
    Ordered ⟨visited, ⟨node, targets⟩ :: rest, found⟩ where
  distinct := ordered.distinct
  path := ordered.path
  targets := by
    obtain ⟨own, others⟩ := List.forall_mem_cons.mp ordered.targets
    exact List.forall_mem_cons.mpr ⟨(List.nodup_cons.mp own).2, others⟩
  uninspected := by
    obtain ⟨own, others⟩ := List.forall_mem_cons.mp ordered.uninspected
    exact List.forall_mem_cons.mpr
      ⟨fun other member => own other (List.mem_cons_of_mem target member), others⟩
  ascends := ordered.ascends
  once := ordered.once

/-- A target that lies on the path closes a walk. -/
theorem close
    (ordered : Ordered ⟨visited, ⟨node, target :: targets⟩ :: rest, found⟩)
    (onPath : target ∈ node :: pathNodes rest) :
    Ordered ⟨visited, ⟨node, targets⟩ :: rest,
      closedWalk (⟨node, targets⟩ :: rest) target :: found⟩ := by
  have inspected := ordered.inspect
  have ends : ∀ {origin other : String},
      EndsBy (closedWalk (⟨node, targets⟩ :: rest) target) origin other →
        origin = node ∧ other = target := by
    intro origin other endsBy
    obtain ⟨walk, member, initial, shape⟩ :=
      @closedWalk_closes node target targets rest []
    rw [List.mem_singleton.mp member] at shape
    rw [shape] at endsBy
    exact endsBy_append_iff.mp endsBy
  have fresh : ¬ Closes found node target :=
    ordered.uninspected _ List.mem_cons_self target List.mem_cons_self
  have targetsOnce : (target :: targets).Nodup :=
    ordered.targets _ List.mem_cons_self
  have pathOnce : (node :: pathNodes rest).Nodup :=
    ordered.distinct.sublist ordered.path
  refine ⟨ordered.distinct, ordered.path, inspected.targets, ?_, ?_, ?_⟩
  · intro frame member other listed closes
    obtain ⟨walk, walkMember, endsBy⟩ := closes_iff.mp closes
    rcases List.mem_cons.mp walkMember with rfl | old
    · obtain ⟨sameNode, rfl⟩ := ends endsBy
      rcases List.mem_cons.mp member with rfl | below
      · exact (List.nodup_cons.mp targetsOnce).1 listed
      · have onRest : node ∈ pathNodes rest :=
          List.mem_map.mpr ⟨frame, below, sameNode⟩
        exact (List.nodup_cons.mp pathOnce).1 onRest
    · exact inspected.uninspected frame member other listed
        (closes_iff.mpr ⟨walk, old, endsBy⟩)
  · refine List.forall_mem_cons.mpr ⟨?_, ordered.ascends⟩
    -- The walk goes along the part of the path from the target on.
    let behind := (node :: pathNodes rest).takeWhile (· != target)
    obtain ⟨before, split⟩ := takeWhile_ne_append onPath
    have upTo : behind ++ [target] <+: node :: pathNodes rest :=
      ⟨before, by rw [List.append_assoc]; exact split.symm⟩
    refine ⟨target, behind.reverse, rfl, ?_⟩
    rw [List.reverse_cons, List.reverse_reverse]
    exact upTo.sublist.trans ordered.path
  · refine List.pairwise_cons.mpr ⟨?_, ordered.once⟩
    intro walk member origin other endsBy otherEnds
    obtain ⟨rfl, rfl⟩ := ends endsBy
    exact fresh (closes_iff.mpr ⟨walk, member, otherEnds⟩)

/-- One step keeps the order. -/
theorem step
    {adjacency : Adjacency} {progress next : Progress}
    (targetsDistinct : TargetsDistinct adjacency)
    (ordered : Ordered progress) (step : Step adjacency progress next) :
    Ordered next := by
  cases step with
  | start fresh known =>
      exact ordered.push fresh (targetsDistinct _ _ known)
  | leave =>
      exact ordered.pop
  | close onPath =>
      exact ordered.close onPath
  | enter _ fresh known =>
      exact ordered.inspect.push fresh (targetsDistinct _ _ known)
  | pass _ _ =>
      exact ordered.inspect

/-- A run keeps the order. -/
theorem run
    {adjacency : Adjacency} {first last : Progress}
    (targetsDistinct : TargetsDistinct adjacency)
    (ordered : Ordered first) (run : Run adjacency first last) :
    Ordered last := by
  induction run with
  | refl =>
      exact ordered
  | tail _ step inductionHypothesis =>
      exact inductionHypothesis.step targetsDistinct step

/-- No two walks found have the same steps. -/
theorem not_sameSteps
    {progress : Progress} (ordered : Ordered progress) :
    progress.found.Pairwise fun first second => ¬ SameSteps first second := by
  refine ordered.once.imp_of_mem ?_
  intro first second firstMember secondMember once same
  obtain ⟨origin, target, ends, otherEnds⟩ :=
    (ordered.ascends first firstMember).endsBy_of_sameSteps ordered.distinct
      (ordered.ascends second secondMember) same
  exact once origin target ends otherEnds

end Ordered

end Progress

/-- No two walks of the search over all nodes have the same steps. -/
theorem searchAll_not_sameSteps
    {adjacency : Adjacency} {walks : List (List String)}
    (targetsKnown : TargetsKnown adjacency) (targetsDistinct : TargetsDistinct adjacency)
    (searched : searchAll adjacency (adjacency.map (·.1)) [] [] = .ok walks) :
    walks.Pairwise fun first second => ¬ SameSteps first second := by
  obtain ⟨_, found, answer, run, _⟩ := searchAll_run_of_targetsKnown targetsKnown
  have ordered := Progress.ordered_initial.run targetsDistinct run
  rw [searched, Except.ok.injEq] at answer
  rw [answer, List.pairwise_reverse]
  refine ordered.not_sameSteps.imp ?_
  intro second first different same
  exact different same.symm

end ModuleAtlas.Graph
