import Mathlib.Algebra.Ring.Nat
import Mathlib.Data.Finset.Basic
import Mathlib.Data.List.Perm.Basic
import ModuleAtlas.Proofs.CycleSearch

/-!
# The loop of the search for cycles

The search for cycles as a loop over structures that are kept apart: the nodes
entered, the path, the set of the nodes on it, and for each of them what is
unread of its targets.  Every turn of the loop leaves what the search comes to as
it is, so the loop and the recursion are the same search.

`Traversal.Invariant` ties the structures together, and every turn keeps it.
What is still to be done becomes less by one with every turn, so the loop ends;
and when no root is left each node has been entered once and each of its targets
been inspected once.
-/

namespace ModuleAtlas.Graph

/-- Where the loop stands.  The path and what is unread of the targets of its nodes
begin with the node entered last.  `pushed` and `inspected` tell in order what
the loop has done so far: the nodes entered, and the targets looked at together
with the nodes that list them. -/
structure Traversal where
  roots : List String
  visited : Finset String
  path : List String
  onPath : Finset String
  unread : List (List String)
  found : List (List String)
  pushed : List String
  inspected : List (String × String)

namespace Traversal

/-! ## Turns -/

/-- The loop before its first turn. -/
def start (order : List String) : Traversal :=
  ⟨order, ∅, [], ∅, [], [], [], []⟩

/-- A node with the given targets is entered. -/
def enter (state : Traversal) (node : String) (targets : List String) : Traversal :=
  { state with
    visited := insert node state.visited
    path := node :: state.path
    onPath := insert node state.onPath
    unread := targets :: state.unread
    pushed := state.pushed ++ [node] }

/-- A target of a node is inspected, after which the given ones are unread. -/
def inspect (state : Traversal) (node target : String) (unread : List (List String)) :
    Traversal :=
  { state with unread := unread, inspected := state.inspected ++ [(node, target)] }

/-- The last node of the path is left. -/
def leave (state : Traversal) (node : String) (path : List String)
    (unread : List (List String)) : Traversal :=
  { state with path := path, onPath := state.onPath.erase node, unread := unread }

/-- The path from a node on is reported as a walk back to this node. -/
def close (state : Traversal) (target : String) : Traversal :=
  { state with
    found := (target :: (state.path.takeWhile (· != target)).reverse ++ [target]) ::
      state.found }

/-- The next root is taken, with the path empty. -/
def rootTaken (state : Traversal) (roots : List String) : Traversal :=
  { state with roots := roots, path := [], onPath := ∅ }

/-- One turn of the loop. There is none when no root is left, and none where the
loop breaks down: at a node without targets of its own, at a path that is empty
too early, and at a target that is said to be on the path and is not. -/
def turn (adjacency : Adjacency) (state : Traversal) : Option Traversal :=
  match state.unread, state.path with
  | [], _ =>
    match state.roots with
    | [] => none
    | root :: roots =>
      if root ∈ state.visited then some { state with roots := roots }
      else (adjacency.lookup root).map ((state.rootTaken roots).enter root)
  | _ :: _, [] => none
  | [] :: unread, node :: path => some (state.leave node path unread)
  | (target :: targets) :: unread, node :: _ =>
    let inspected := state.inspect node target (targets :: unread)
    if target ∈ state.onPath then
      if target ∈ state.path then some (inspected.close target) else none
    else if target ∈ state.visited then some inspected
    else (adjacency.lookup target).map (inspected.enter target)

/-- No root is left, and no path. -/
def IsOver (state : Traversal) : Prop :=
  state.roots = [] ∧ state.unread = []

/-- So many turns lead from one state to another. -/
inductive Turns (adjacency : Adjacency) : Nat → Traversal → Traversal → Prop
  | refl (state : Traversal) : Turns adjacency 0 state state
  | tail {count : Nat} {first state next : Traversal} :
      Turns adjacency count first state →
      state.turn adjacency = some next →
      Turns adjacency (count + 1) first next

/-- What a turn can do. -/
inductive Move (adjacency : Adjacency) (state : Traversal) : Traversal → Prop
  | skip {root : String} {roots : List String} :
      state.unread = [] →
      state.roots = root :: roots →
      root ∈ state.visited →
      Move adjacency state { state with roots := roots }
  | begin {root : String} {roots targets : List String} :
      state.unread = [] →
      state.roots = root :: roots →
      root ∉ state.visited →
      adjacency.lookup root = some targets →
      Move adjacency state ((state.rootTaken roots).enter root targets)
  | leave {node : String} {path : List String} {unread : List (List String)} :
      state.path = node :: path →
      state.unread = [] :: unread →
      Move adjacency state (state.leave node path unread)
  | close {node target : String} {path targets : List String} {unread : List (List String)} :
      state.path = node :: path →
      state.unread = (target :: targets) :: unread →
      target ∈ state.path →
      Move adjacency state ((state.inspect node target (targets :: unread)).close target)
  | pass {node target : String} {path targets : List String} {unread : List (List String)} :
      state.path = node :: path →
      state.unread = (target :: targets) :: unread →
      target ∉ state.onPath →
      target ∈ state.visited →
      Move adjacency state (state.inspect node target (targets :: unread))
  | enter {node target : String} {path targets next : List String}
      {unread : List (List String)} :
      state.path = node :: path →
      state.unread = (target :: targets) :: unread →
      target ∉ state.onPath →
      target ∉ state.visited →
      adjacency.lookup target = some next →
      Move adjacency state ((state.inspect node target (targets :: unread)).enter target next)

theorem move_of_turn
    {adjacency : Adjacency} {state next : Traversal}
    (turned : state.turn adjacency = some next) :
    Move adjacency state next := by
  unfold turn at turned
  split at turned
  · next unread =>
    split at turned
    · cases turned
    · next roots =>
      split at turned
      · next seen =>
        cases turned
        exact .skip unread roots seen
      · next fresh =>
        obtain ⟨targets, known, rfl⟩ := Option.map_eq_some_iff.mp turned
        exact .begin unread roots fresh known
  · cases turned
  · next unread path =>
    cases turned
    exact .leave path unread
  · next unread path =>
    dsimp only at turned
    split at turned
    · split at turned
      · next member =>
        cases turned
        exact .close path unread member
      · cases turned
    · next offPath =>
      split at turned
      · next seen =>
        cases turned
        exact .pass path unread offPath seen
      · next fresh =>
        obtain ⟨next, known, rfl⟩ := Option.map_eq_some_iff.mp turned
        exact .enter path unread offPath fresh known

/-! ## The invariant -/

/-- The targets of a node that have been inspected, in order. -/
def inspectedFrom (state : Traversal) (node : String) : List String :=
  (state.inspected.filter fun entry => entry.1 == node).map (·.2)

theorem inspectedFrom_inspect
    (state : Traversal) (node target other : String) (unread : List (List String)) :
    (state.inspect node target unread).inspectedFrom other =
      state.inspectedFrom other ++ if other = node then [target] else [] := by
  by_cases same : other = node
  · simp [inspectedFrom, inspect, same]
  · simp [inspectedFrom, inspect, same, Ne.symm same]

/-- What holds wherever the loop stands. -/
structure Invariant (adjacency : Adjacency) (order : List String) (state : Traversal) :
    Prop where
  /-- The path and the stack of what is unread have equal length. -/
  aligned : state.path.length = state.unread.length
  /-- The path repeats no node. -/
  distinct : state.path.Nodup
  /-- The path follows the adjacency. -/
  connected : state.path.reverse.IsChain (Leads adjacency)
  /-- The set of the nodes on the path is exactly that. -/
  onPath : state.onPath = state.path.toFinset
  /-- All nodes on the path have been entered. -/
  entered : state.onPath ⊆ state.visited
  /-- All targets of a node that was left have been inspected. -/
  left :
    ∀ node ∈ state.visited, node ∉ state.path →
      adjacency.lookup node = some (state.inspectedFrom node)
  /-- A target of a node on the path has been inspected, or it is unread. -/
  pending :
    ∀ frame ∈ state.path.zip state.unread,
      adjacency.lookup frame.1 = some (state.inspectedFrom frame.1 ++ frame.2)
  /-- No target of another node has been inspected. -/
  untouched : ∀ node, node ∉ state.visited → state.inspectedFrom node = []
  /-- No node was entered twice. -/
  once : state.pushed.Nodup
  pushed : state.visited = state.pushed.toFinset
  /-- Roots that are not left have been entered. -/
  roots : state.roots <:+ order
  passed : ∀ root ∈ order, root ∈ state.roots ∨ root ∈ state.visited

theorem invariant_start (adjacency : Adjacency) (order : List String) :
    Invariant adjacency order (start order) where
  aligned := rfl
  distinct := List.nodup_nil
  connected := List.isChain_nil
  onPath := rfl
  entered := Finset.Subset.refl _
  left := by simp [start]
  pending := by simp [start]
  untouched := fun _ _ => rfl
  once := List.nodup_nil
  pushed := rfl
  roots := List.suffix_rfl
  passed := fun _ member => Or.inl member

namespace Invariant

variable {adjacency : Adjacency} {order : List String} {state : Traversal}

/-- A node that was not entered before may be, below the last node of the path. -/
theorem enter
    (invariant : Invariant adjacency order state) {node : String} {targets : List String}
    (fresh : node ∉ state.visited) (known : adjacency.lookup node = some targets)
    (below : ∀ parent ∈ state.path.head?, Leads adjacency parent node) :
    Invariant adjacency order (state.enter node targets) where
  aligned := congrArg (· + 1) invariant.aligned
  distinct := by
    refine List.nodup_cons.mpr ⟨?_, invariant.distinct⟩
    intro member
    refine fresh (invariant.entered ?_)
    rwa [invariant.onPath, List.mem_toFinset]
  connected := by
    change (node :: state.path).reverse.IsChain (Leads adjacency)
    rw [List.reverse_cons]
    refine invariant.connected.append (List.isChain_singleton node) ?_
    intro parent last child first
    rw [List.getLast?_reverse] at last
    cases first
    exact below parent last
  onPath := by
    change insert node state.onPath = (node :: state.path).toFinset
    rw [invariant.onPath, List.toFinset_cons]
  entered := Finset.insert_subset_insert node invariant.entered
  left := by
    intro other member offPath
    have different : other ≠ node := fun same => offPath (same ▸ List.mem_cons_self)
    exact invariant.left other (Finset.mem_of_mem_insert_of_ne member different)
      fun onPath => offPath (List.mem_cons_of_mem node onPath)
  pending := by
    refine List.forall_mem_cons.mpr ⟨?_, invariant.pending⟩
    change adjacency.lookup node = some (state.inspectedFrom node ++ targets)
    rw [invariant.untouched node fresh]
    exact known
  untouched := by
    intro other absent
    exact invariant.untouched other fun member => absent (Finset.mem_insert_of_mem member)
  once := by
    change (state.pushed ++ [node]).Nodup
    rw [invariant.pushed, List.mem_toFinset] at fresh
    rw [← List.concat_eq_append]
    exact invariant.once.concat fresh
  pushed := by
    change insert node state.visited = (state.pushed ++ [node]).toFinset
    rw [invariant.pushed]
    ext other
    simp only [Finset.mem_insert, List.mem_toFinset, List.mem_append, List.mem_singleton]
    exact or_comm
  roots := invariant.roots
  passed := fun root member =>
    (invariant.passed root member).imp_right Finset.mem_insert_of_mem

section

variable {node : String} {path : List String} {unread : List (List String)}

/-- The last node of the path may be left when none of its targets is unread. -/
theorem leave
    (invariant : Invariant adjacency order state) (shape : state.path = node :: path)
    (read : state.unread = [] :: unread) :
    Invariant adjacency order (state.leave node path unread) := by
  obtain ⟨aligned, distinct, connected, onPath, entered, left, pending, untouched, once, pushed,
    roots, passed⟩ := invariant
  rw [shape] at aligned distinct connected onPath left pending
  rw [read] at aligned pending
  obtain ⟨own, others⟩ := List.forall_mem_cons.mp pending
  obtain ⟨fresh, distinct⟩ := List.nodup_cons.mp distinct
  refine ⟨Nat.succ.inj aligned, distinct, ?_, ?_, ?_, ?_, others, untouched, once, pushed,
    roots, passed⟩
  · rw [List.reverse_cons] at connected
    exact connected.left_of_append
  · change state.onPath.erase node = path.toFinset
    rw [onPath, List.toFinset_cons, Finset.erase_insert]
    rwa [List.mem_toFinset]
  · exact (Finset.erase_subset node state.onPath).trans entered
  · intro other member offPath
    by_cases same : other = node
    · subst same
      rwa [List.append_nil] at own
    · exact left other member fun listed => offPath ((List.mem_cons.mp listed).resolve_left same)

/-- An unread target of the last node of the path may be inspected. -/
theorem inspect
    (invariant : Invariant adjacency order state) {target : String} {targets : List String}
    (shape : state.path = node :: path) (read : state.unread = (target :: targets) :: unread) :
    Leads adjacency node target ∧
      Invariant adjacency order (state.inspect node target (targets :: unread)) := by
  obtain ⟨aligned, distinct, connected, onPath, entered, left, pending, untouched, once, pushed,
    roots, passed⟩ := invariant
  rw [shape, read] at pending
  obtain ⟨own, others⟩ := List.forall_mem_cons.mp pending
  have nodeOnPath : node ∈ state.path := by simp [shape]
  have nodeEntered : node ∈ state.visited := by
    apply entered
    rwa [onPath, List.mem_toFinset]
  refine ⟨⟨_, own, by simp⟩, ?_, distinct, connected, onPath, entered, ?_, ?_, ?_, once, pushed,
    roots, passed⟩
  · rw [read] at aligned
    exact aligned
  · intro other member offPath
    have different : other ≠ node := fun same => offPath (same ▸ nodeOnPath)
    rw [inspectedFrom_inspect, if_neg different, List.append_nil]
    exact left other member offPath
  · change ∀ frame ∈ state.path.zip (targets :: unread), _
    rw [shape]
    refine List.forall_mem_cons.mpr ⟨?_, ?_⟩
    · rw [inspectedFrom_inspect, if_pos rfl, List.append_assoc]
      exact own
    · intro frame member
      -- No other node of the path is this one.
      have different : frame.1 ≠ node := by
        rw [shape] at distinct
        rintro rfl
        exact (List.nodup_cons.mp distinct).1 (List.of_mem_zip member).1
      rw [inspectedFrom_inspect, if_neg different, List.append_nil]
      exact others frame member
  · intro other absent
    have different : other ≠ node := fun same => absent (same ▸ nodeEntered)
    rw [inspectedFrom_inspect, if_neg different, List.append_nil]
    exact untouched other absent

end

theorem path_eq_nil
    (invariant : Invariant adjacency order state) (read : state.unread = []) :
    state.path = [] := by
  have aligned := invariant.aligned
  rw [read] at aligned
  exact List.eq_nil_of_length_eq_zero aligned

/-- With the path empty a root that has been entered may be passed over. -/
theorem skip
    (invariant : Invariant adjacency order state) {root : String} {roots : List String}
    (listed : state.roots = root :: roots) (seen : root ∈ state.visited) :
    Invariant adjacency order { state with roots := roots } := by
  refine { invariant with roots := ?_, passed := ?_ }
  · have suffix := invariant.roots
    rw [listed] at suffix
    exact (List.suffix_cons root roots).trans suffix
  · intro other member
    rcases invariant.passed other member with waiting | entered
    · rw [listed] at waiting
      rcases List.mem_cons.mp waiting with rfl | later
      · exact Or.inr seen
      · exact Or.inl later
    · exact Or.inr entered

/-- Every move keeps the invariant. -/
theorem move
    (invariant : Invariant adjacency order state) {next : Traversal}
    (moved : Move adjacency state next) :
    Invariant adjacency order next := by
  cases moved with
  | skip read listed seen =>
      exact invariant.skip listed seen
  | @begin root roots targets read listed fresh known =>
      have empty := invariant.path_eq_nil read
      have entered : Invariant adjacency order (state.enter root targets) :=
        invariant.enter fresh known (by simp [empty])
      have alone : (state.rootTaken roots).enter root targets =
          { state.enter root targets with roots := roots } := by
        simp [rootTaken, Traversal.enter, empty, invariant.onPath]
      rw [alone]
      exact entered.skip listed (Finset.mem_insert_self root state.visited)
  | leave shape read =>
      exact invariant.leave shape read
  | close shape read member =>
      exact { (invariant.inspect shape read).2 with }
  | pass shape read offPath seen =>
      exact (invariant.inspect shape read).2
  | enter shape read offPath fresh known =>
      obtain ⟨edge, inspected⟩ := invariant.inspect shape read
      refine inspected.enter fresh known ?_
      intro parent first
      change parent ∈ state.path.head? at first
      rw [shape] at first
      cases first
      exact edge

theorem turns
    {first last : Traversal} {count : Nat} (invariant : Invariant adjacency order first)
    (turned : Turns adjacency count first last) :
    Invariant adjacency order last := by
  induction turned with
  | refl =>
      exact invariant
  | tail _ further inductionHypothesis =>
      exact (inductionHypothesis invariant).move (move_of_turn further)

/-- Where all targets are known the loop ends when it is over or at an unknown
root. -/
theorem turn_eq_none
    (invariant : Invariant adjacency order state) (targetsKnown : TargetsKnown adjacency)
    (stopped : state.turn adjacency = none) :
    state.IsOver ∨
      ∃ root roots, state.unread = [] ∧ state.roots = root :: roots ∧ root ∉ state.visited ∧
        adjacency.lookup root = none := by
  unfold turn at stopped
  split at stopped
  · next read =>
    split at stopped
    · next ended =>
      exact Or.inl ⟨ended, read⟩
    · next root roots listed =>
      split at stopped
      · cases stopped
      · next fresh =>
        exact Or.inr ⟨root, roots, read, listed, fresh, Option.map_eq_none_iff.mp stopped⟩
  · next read empty =>
    have aligned := invariant.aligned
    rw [read, empty] at aligned
    cases aligned
  · cases stopped
  · next read shape =>
    dsimp only at stopped
    split at stopped
    · next onPath =>
      rw [if_pos] at stopped
      · cases stopped
      · rw [← List.mem_toFinset, ← invariant.onPath]
        exact onPath
    · split at stopped
      · cases stopped
      · obtain ⟨targets, known⟩ := targetsKnown _ _ (invariant.inspect shape read).1
        rw [known] at stopped
        cases stopped

end Invariant

end Traversal

/-! ## What the loop comes to -/

/-- The search from a path, and then from the roots that are left. -/
def searchOn (adjacency : Adjacency) (roots visited : List String) (frames : List Frame)
    (found : List (List String)) : Except UnknownNode (List (List String)) :=
  match search adjacency visited frames found with
  | .error unknown => .error unknown
  | .ok (entered, walks) => searchAll adjacency roots entered walks

section

variable {adjacency : Adjacency} {roots visited targets : List String}
  {frames rest : List Frame} {found : List (List String)} {root node target : String}

theorem searchOn_nil :
    searchOn adjacency roots visited [] found = searchAll adjacency roots visited found := by
  rw [searchOn, search]

theorem searchOn_skip (seen : root ∈ visited) :
    searchOn adjacency (root :: roots) visited [] found =
      searchOn adjacency roots visited [] found := by
  rw [searchOn_nil, searchOn_nil, searchAll, if_pos (List.contains_iff_mem.mpr seen)]

theorem searchOn_begin
    (fresh : root ∉ visited) (known : adjacency.lookup root = some targets) :
    searchOn adjacency (root :: roots) visited [] found =
      searchOn adjacency roots (root :: visited) [⟨root, targets⟩] found := by
  rw [searchOn_nil, searchAll, if_neg (mt List.contains_iff_mem.mp fresh), known]
  rfl

theorem searchOn_unknown
    (fresh : root ∉ visited) (unknown : adjacency.lookup root = none) :
    searchOn adjacency (root :: roots) visited [] found = .error ⟨root⟩ := by
  rw [searchOn_nil, searchAll, if_neg (mt List.contains_iff_mem.mp fresh), unknown]

theorem searchOn_leave :
    searchOn adjacency roots visited (⟨node, []⟩ :: rest) found =
      searchOn adjacency roots visited rest found := by
  rw [searchOn, searchOn, search]

theorem searchOn_close (onPath : target ∈ node :: pathNodes rest) :
    searchOn adjacency roots visited (⟨node, target :: targets⟩ :: rest) found =
      searchOn adjacency roots visited (⟨node, targets⟩ :: rest)
        (closedWalk (⟨node, targets⟩ :: rest) target :: found) := by
  rw [searchOn, searchOn, search, if_pos (List.contains_iff_mem.mpr onPath)]

theorem searchOn_pass
    (offPath : target ∉ node :: pathNodes rest) (seen : target ∈ visited) :
    searchOn adjacency roots visited (⟨node, target :: targets⟩ :: rest) found =
      searchOn adjacency roots visited (⟨node, targets⟩ :: rest) found := by
  rw [searchOn, searchOn, search, if_neg (mt List.contains_iff_mem.mp offPath), dif_neg]
  simpa using seen

theorem searchOn_enter
    {next : List String} (offPath : target ∉ node :: pathNodes rest)
    (fresh : target ∉ visited) (known : adjacency.lookup target = some next) :
    searchOn adjacency roots visited (⟨node, target :: targets⟩ :: rest) found =
      searchOn adjacency roots (target :: visited)
        (⟨target, next⟩ :: ⟨node, targets⟩ :: rest) found := by
  have unseen : visited.contains target = false := by simpa using fresh
  have entered :
      search adjacency visited (⟨node, target :: targets⟩ :: rest) found =
        search adjacency (target :: visited) (⟨target, next⟩ :: ⟨node, targets⟩ :: rest) found := by
    rw [search, if_neg (mt List.contains_iff_mem.mp offPath), dif_pos unseen]
    split
    · next unknown =>
      rw [known] at unknown
      cases unknown
    · next listed same =>
      rw [known, Option.some.injEq] at same
      rw [same]
  rw [searchOn, searchOn, entered]

end

namespace Traversal

/-- The path with what is unread, as the frames of the recursion. -/
def frames (state : Traversal) : List Frame :=
  List.zipWith Frame.mk state.path state.unread

/-- What the search comes to from here. -/
def outcome (adjacency : Adjacency) (state : Traversal) :
    Except UnknownNode (List (List String)) :=
  searchOn adjacency state.roots state.pushed.reverse state.frames state.found

theorem outcome_start (adjacency : Adjacency) (order : List String) :
    (start order).outcome adjacency = searchAll adjacency order [] [] :=
  searchOn_nil

theorem outcome_of_isOver
    {adjacency : Adjacency} {state : Traversal} (ended : state.IsOver) :
    state.outcome adjacency = .ok state.found.reverse := by
  obtain ⟨noRoots, read⟩ := ended
  rw [outcome, frames, noRoots, read, List.zipWith_nil_right, searchOn_nil, searchAll]

theorem pathNodes_zipWith
    {path : List String} {unread : List (List String)} (aligned : path.length = unread.length) :
    pathNodes (List.zipWith Frame.mk path unread) = path := by
  induction path generalizing unread with
  | nil =>
      rfl
  | cons node path inductionHypothesis =>
      cases unread with
      | nil =>
          cases aligned
      | cons targets unread =>
          exact congrArg (node :: ·) (inductionHypothesis (Nat.succ.inj aligned))

theorem frames_eq_cons
    {state : Traversal} {node : String} {path targets : List String}
    {unread : List (List String)} (shape : state.path = node :: path)
    (read : state.unread = targets :: unread) :
    state.frames = ⟨node, targets⟩ :: List.zipWith Frame.mk path unread := by
  rw [frames, shape, read]
  rfl

/-- Every move leaves what the search comes to as it is. -/
theorem outcome_move
    {adjacency : Adjacency} {order : List String} {state next : Traversal}
    (invariant : Invariant adjacency order state) (moved : Move adjacency state next) :
    next.outcome adjacency = state.outcome adjacency := by
  have entered (node : String) : node ∈ state.visited ↔ node ∈ state.pushed.reverse := by
    rw [invariant.pushed, List.mem_toFinset, List.mem_reverse]
  have onPath (node : String) : node ∈ state.onPath ↔ node ∈ state.path := by
    rw [invariant.onPath, List.mem_toFinset]
  have nodes {node : String} {path targets : List String} {unread : List (List String)}
      (shape : state.path = node :: path) (read : state.unread = targets :: unread) :
      state.path = node :: pathNodes (List.zipWith Frame.mk path unread) := by
    have aligned := invariant.aligned
    rw [shape, read] at aligned
    rw [pathNodes_zipWith (Nat.succ.inj aligned), shape]
  cases moved with
  | skip read listed seen =>
      have empty : state.frames = [] := by rw [frames, read, List.zipWith_nil_right]
      rw [outcome, outcome, listed, empty, searchOn_skip ((entered _).mp seen), ← empty]
      rfl
  | begin read listed fresh known =>
      have empty : state.frames = [] := by rw [frames, read, List.zipWith_nil_right]
      rw [outcome, outcome, listed, empty, searchOn_begin (mt (entered _).mpr fresh) known]
      simp [enter, rootTaken, frames, read]
  | leave shape read =>
      rw [outcome, outcome, frames_eq_cons shape read, searchOn_leave]
      rfl
  | @close node target path targets unread shape read member =>
      have alike := nodes shape read
      rw [alike] at member
      have inspected :
          (state.inspect node target (targets :: unread)).frames =
            ⟨node, targets⟩ :: List.zipWith Frame.mk path unread :=
        frames_eq_cons shape rfl
      have walks :
          ((state.inspect node target (targets :: unread)).close target).found =
            closedWalk (⟨node, targets⟩ :: List.zipWith Frame.mk path unread) target ::
              state.found := by
        simp only [Traversal.close, inspect, closedWalk, pathNodes_cons, alike]
      rw [outcome, outcome, frames_eq_cons shape read, searchOn_close member, ← walks,
        ← inspected]
      rfl
  | @pass node target path targets unread shape read offPath seen =>
      rw [onPath, nodes shape read] at offPath
      have inspected :
          (state.inspect node target (targets :: unread)).frames =
            ⟨node, targets⟩ :: List.zipWith Frame.mk path unread :=
        frames_eq_cons shape rfl
      rw [outcome, outcome, frames_eq_cons shape read,
        searchOn_pass offPath ((entered _).mp seen), ← inspected]
      rfl
  | enter shape read offPath fresh known =>
      rw [onPath, nodes shape read] at offPath
      rw [outcome, outcome, frames_eq_cons shape read,
        searchOn_enter offPath (mt (entered _).mpr fresh) known]
      simp [Traversal.enter, inspect, frames, shape]

theorem outcome_turns
    {adjacency : Adjacency} {order : List String} {first last : Traversal} {count : Nat}
    (invariant : Invariant adjacency order first) (turned : Turns adjacency count first last) :
    last.outcome adjacency = first.outcome adjacency := by
  induction turned with
  | refl =>
      rfl
  | tail before further inductionHypothesis =>
      rw [outcome_move (invariant.turns before) (move_of_turn further)]
      exact inductionHypothesis invariant

/-! ## What is left to do -/

/-- For every node that was not entered: its targets, and one more for leaving it. -/
def untouchedWork (adjacency : Adjacency) (visited : Finset String) : Nat :=
  ((adjacency.filter fun entry => entry.1 ∉ visited).map fun entry => entry.2.length + 1).sum

/-- How many turns are left: one for each root, for each unread target, for
leaving each node of the path, and all that nodes not entered come to. -/
def turnsLeft (adjacency : Adjacency) (state : Traversal) : Nat :=
  state.roots.length + untouchedWork adjacency state.visited +
    (state.unread.map fun targets => targets.length + 1).sum

/-- To enter a node takes its targets out of what is untouched. -/
theorem untouchedWork_eq
    {adjacency : Adjacency} (nodup : (adjacency.map (·.1)).Nodup) {visited : Finset String}
    {node : String} {targets : List String} (fresh : node ∉ visited)
    (known : adjacency.lookup node = some targets) :
    untouchedWork adjacency visited =
      untouchedWork adjacency (insert node visited) + (targets.length + 1) := by
  unfold untouchedWork
  induction adjacency with
  | nil =>
      cases known
  | cons entry rest inductionHypothesis =>
      obtain ⟨key, listed⟩ := entry
      obtain ⟨absent, restNodup⟩ := List.nodup_cons.mp nodup
      by_cases same : node = key
      · subst same
        have own : listed = targets := by simpa using known
        -- The node is no key of the rest.
        have others : (rest.filter fun entry => entry.1 ∉ insert node visited) =
            rest.filter fun entry => entry.1 ∉ visited := by
          apply List.filter_congr
          intro other member
          have different : other.1 ≠ node := fun equal =>
            absent (List.mem_map.mpr ⟨other, member, equal⟩)
          simp [different]
        rw [List.filter_cons_of_pos (by simpa using fresh),
          List.filter_cons_of_neg (by simp), others, List.map_cons, List.sum_cons, own,
          Nat.add_comm]
      · have later : rest.lookup node = some targets := by
          rwa [List.lookup_cons, beq_eq_false_iff_ne.mpr same] at known
        have smaller := inductionHypothesis restNodup later
        by_cases seen : key ∈ visited
        · rw [List.filter_cons_of_neg (by simpa using seen),
            List.filter_cons_of_neg (by simp [seen])]
          exact smaller
        · rw [List.filter_cons_of_pos (by simpa using seen),
            List.filter_cons_of_pos (by simp [seen, Ne.symm same]), List.map_cons,
            List.map_cons, List.sum_cons, List.sum_cons, smaller]
          omega

/-- Every move is one turn less to do. -/
theorem turnsLeft_move
    {adjacency : Adjacency} (nodup : (adjacency.map (·.1)).Nodup) {state next : Traversal}
    (moved : Move adjacency state next) :
    state.turnsLeft adjacency = next.turnsLeft adjacency + 1 := by
  cases moved with
  | skip read listed seen =>
      simp only [turnsLeft, listed, List.length_cons]
      omega
  | begin read listed fresh known =>
      have taken := untouchedWork_eq nodup fresh known
      simp only [turnsLeft, read, listed, enter, rootTaken, taken, List.length_cons,
        List.map_cons, List.map_nil, List.sum_cons, List.sum_nil]
      omega
  | leave shape read =>
      simp only [turnsLeft, read, leave, List.map_cons, List.sum_cons, List.length_nil]
      omega
  | close shape read member =>
      simp only [turnsLeft, read, Traversal.close, inspect, List.map_cons, List.sum_cons,
        List.length_cons]
      omega
  | pass shape read offPath seen =>
      simp only [turnsLeft, read, inspect, List.map_cons, List.sum_cons, List.length_cons]
      omega
  | enter shape read offPath fresh known =>
      have taken := untouchedWork_eq nodup fresh known
      simp only [turnsLeft, read, Traversal.enter, inspect, taken, List.map_cons,
        List.sum_cons, List.length_cons]
      omega

theorem turnsLeft_turns
    {adjacency : Adjacency} (nodup : (adjacency.map (·.1)).Nodup) {first last : Traversal}
    {count : Nat} (turned : Turns adjacency count first last) :
    first.turnsLeft adjacency = last.turnsLeft adjacency + count := by
  induction turned with
  | refl =>
      rfl
  | tail _ further inductionHypothesis =>
      rw [inductionHypothesis, turnsLeft_move nodup (move_of_turn further)]
      omega

/-- The loop ends, as there is always one turn less to do. -/
theorem exists_turns
    {adjacency : Adjacency} (nodup : (adjacency.map (·.1)).Nodup) (first : Traversal) :
    ∃ count last, Turns adjacency count first last ∧ last.turn adjacency = none := by
  have further (bound : Nat) :
      ∀ count state, Turns adjacency count first state → state.turnsLeft adjacency ≤ bound →
        ∃ count last, Turns adjacency count first last ∧ last.turn adjacency = none := by
    induction bound with
    | zero =>
        intro count state turned few
        refine ⟨count, state, turned, ?_⟩
        rw [Option.eq_none_iff_forall_ne_some]
        intro next turnedOn
        have less := turnsLeft_move nodup (move_of_turn turnedOn)
        omega
    | succ bound inductionHypothesis =>
        intro count state turned few
        cases turnedOn : state.turn adjacency with
        | none =>
            exact ⟨count, state, turned, turnedOn⟩
        | some next =>
            have less := turnsLeft_move nodup (move_of_turn turnedOn)
            exact inductionHypothesis (count + 1) next (turned.tail turnedOn) (by omega)
  exact further _ 0 first (.refl first) (Nat.le_refl _)

/-! ## Whole runs -/

/-- What a whole run has done, in so many turns: each node was entered once, and
the targets of each were inspected one after another, each of them once. -/
structure IsWholeRun (adjacency : Adjacency) (order : List String) (turns : Nat)
    (last : Traversal) : Prop where
  pushed : last.pushed.Perm (adjacency.map (·.1))
  inspected : ∀ node, last.inspectedFrom node = (adjacency.lookup node).getD []
  turns : turns = order.length + (adjacency.map fun entry => entry.2.length + 1).sum
  answer : searchAll adjacency order [] [] = .ok last.found.reverse

theorem turnsLeft_start (adjacency : Adjacency) (order : List String) :
    (start order).turnsLeft adjacency =
      order.length + (adjacency.map fun entry => entry.2.length + 1).sum := by
  simp [turnsLeft, untouchedWork, start]

/-- When the loop is over, every node has been entered and left. -/
theorem Invariant.isWholeRun
    {adjacency : Adjacency} {order : List String} {last : Traversal} {count : Nat}
    (nodup : (adjacency.map (·.1)).Nodup) (covers : ∀ entry ∈ adjacency, entry.1 ∈ order)
    (turned : Turns adjacency count (start order) last) (ended : last.IsOver) :
    IsWholeRun adjacency order count last := by
  have invariant := (invariant_start adjacency order).turns turned
  obtain ⟨noRoots, read⟩ := ended
  have empty := invariant.path_eq_nil read
  have visited (node : String) : node ∈ last.visited ↔ node ∈ adjacency.map (·.1) := by
    constructor
    · intro member
      exact mem_keys_iff.mpr ⟨_, invariant.left node member (by simp [empty])⟩
    · intro known
      obtain ⟨entry, member, rfl⟩ := List.mem_map.mp known
      refine (invariant.passed entry.1 (covers entry member)).resolve_left ?_
      simp [noRoots]
  have untouched : untouchedWork adjacency last.visited = 0 := by
    unfold untouchedWork
    rw [List.filter_eq_nil_iff.mpr]
    · rfl
    · intro entry member
      simpa [visited] using ⟨entry.2, member⟩
  refine ⟨?_, ?_, ?_, ?_⟩
  · rw [List.perm_ext_iff_of_nodup invariant.once nodup]
    intro node
    rw [← visited, invariant.pushed, List.mem_toFinset]
  · intro node
    by_cases member : node ∈ last.visited
    · rw [invariant.left node member (by simp [empty])]
      rfl
    · have unknown : adjacency.lookup node = none := by
        rw [Option.eq_none_iff_forall_ne_some]
        intro targets known
        exact member ((visited node).mpr (mem_keys_iff.mpr ⟨targets, known⟩))
      rw [invariant.untouched node member, unknown]
      rfl
  · have done := turnsLeft_turns nodup turned
    rw [turnsLeft_start, turnsLeft, noRoots, read, untouched] at done
    simpa using done.symm
  · rw [← outcome_start, ← outcome_turns (invariant_start adjacency order) turned,
      outcome_of_isOver ⟨noRoots, read⟩]

/-- For every order of roots that covers the nodes of an adjacency with known
targets, every state of the loop keeps the invariant and comes to what the search
comes to.  The loop ends: when it is over, or at a root that is no node.  When it
is over each node was entered once and each of its targets inspected once. -/
theorem loop_keeps_invariant_and_ends
    {adjacency : Adjacency} (nodup : (adjacency.map (·.1)).Nodup)
    (targetsKnown : TargetsKnown adjacency) {order : List String}
    (covers : ∀ entry ∈ adjacency, entry.1 ∈ order) :
    (∀ count state, Turns adjacency count (start order) state →
      Invariant adjacency order state ∧
        state.outcome adjacency = searchAll adjacency order [] []) ∧
      (∃ count last, Turns adjacency count (start order) last ∧ last.turn adjacency = none ∧
        (last.IsOver ∨
          ∃ root ∈ order, adjacency.lookup root = none ∧
            searchAll adjacency order [] [] = .error ⟨root⟩)) ∧
      ∀ count last, Turns adjacency count (start order) last → last.IsOver →
        IsWholeRun adjacency order count last := by
  have begins := invariant_start adjacency order
  refine ⟨?_, ?_, ?_⟩
  · intro count state turned
    exact ⟨begins.turns turned, (outcome_turns begins turned).trans (outcome_start adjacency order)⟩
  · obtain ⟨count, last, turned, stopped⟩ := exists_turns nodup (start order)
    refine ⟨count, last, turned, stopped, ?_⟩
    have invariant := begins.turns turned
    rcases invariant.turn_eq_none targetsKnown stopped with
      ended | ⟨root, roots, read, listed, fresh, unknown⟩
    · exact Or.inl ended
    · have member : root ∈ order := invariant.roots.subset (by simp [listed])
      have unseen : root ∉ last.pushed.reverse := by
        rwa [List.mem_reverse, ← List.mem_toFinset, ← invariant.pushed]
      refine Or.inr ⟨root, member, unknown, ?_⟩
      rw [← outcome_start, ← outcome_turns begins turned, outcome, frames, listed, read,
        List.zipWith_nil_right]
      exact searchOn_unknown unseen unknown
  · intro count last turned ended
    exact Invariant.isWholeRun nodup covers turned ended

/-- Two circles that share a node, a node that leads to itself, and one that lists
a target twice. -/
def knottedAdjacency : Adjacency :=
  [("a.js", ["b.js"]), ("b.js", ["a.js", "c.js"]), ("c.js", ["b.js", "c.js"]),
    ("d.js", ["b.js", "b.js"])]

/-- The nodes, one of them twice. -/
def knottedOrder : List String :=
  ["c.js", "d.js", "c.js", "b.js", "a.js"]

theorem loop_keeps_invariant_and_ends_knotted :
    ((knottedAdjacency.map (·.1)).Nodup ∧ TargetsKnown knottedAdjacency ∧
        ∀ entry ∈ knottedAdjacency, entry.1 ∈ knottedOrder) ∧
      ∃ last, Turns knottedAdjacency 16 (start knottedOrder) last ∧ last.IsOver ∧
        Invariant knottedAdjacency knottedOrder last ∧
        last.pushed.Perm ["a.js", "b.js", "c.js", "d.js"] ∧
        last.inspectedFrom "d.js" = ["b.js", "b.js"] := by
  have nodup : (knottedAdjacency.map (·.1)).Nodup := by decide
  have known : ∀ entry ∈ knottedAdjacency, ∀ target ∈ entry.2,
      target ∈ knottedAdjacency.map (·.1) := by decide
  have targetsKnown : TargetsKnown knottedAdjacency := by
    rintro origin target ⟨targets, found, member⟩
    exact mem_keys_iff.mp (known _ ((lookup_eq_some_iff_mem nodup).mp found) target member)
  have covers : ∀ entry ∈ knottedAdjacency, entry.1 ∈ knottedOrder := by decide
  obtain ⟨keeps, ⟨count, last, turned, _, ended | ⟨root, member, unknown, _⟩⟩, whole⟩ :=
    loop_keeps_invariant_and_ends nodup targetsKnown covers
  · have done := whole count last turned ended
    have turns : count = 16 := done.turns
    subst turns
    exact ⟨⟨nodup, targetsKnown, covers⟩, last, turned, ended, (keeps 16 last turned).1,
      done.pushed, done.inspected "d.js"⟩
  · have rootsKnown : ∀ root ∈ knottedOrder, knottedAdjacency.lookup root ≠ none := by decide
    exact absurd unknown (rootsKnown root member)

end Traversal

end ModuleAtlas.Graph
