import Mathlib.Data.List.Chain
import Mathlib.Data.List.Nodup
import Mathlib.Logic.Relation
import ModuleAtlas.Graph.Cycles
import ModuleAtlas.Proofs.KeyedLists

/-!
# Runs of the search for cycles

The search for cycles as a machine that takes step after step. A run of the
whole search starts with no node entered and ends when every root has been
entered and the path is empty.

Two facts carry everything that is said about the search:

* every walk that it reports is closed, repeats no node but its first, and
  follows the adjacency;
* in the order in which nodes are left, an edge leads to a node that was left
  before, unless it closes a reported walk.

The second fact is the invariant `Arranged` together with `Settled`.  It needs
no bound on the number of cycles and no assumption on the order of the roots.
-/

namespace ModuleAtlas.Graph

open Relation

@[simp]
theorem pathNodes_nil : pathNodes [] = [] := rfl

@[simp]
theorem pathNodes_cons
    (node : String) (targets : List String) (rest : List Frame) :
    pathNodes (⟨node, targets⟩ :: rest) = node :: pathNodes rest := rfl

/-! ## Edges and walks -/

/-- The adjacency lists `target` among the targets of `origin`. -/
def Leads (adjacency : Adjacency) (origin target : String) : Prop :=
  ∃ targets, adjacency.lookup origin = some targets ∧ target ∈ targets

theorem Leads.mem_targets
    {adjacency : Adjacency} {origin target : String} {targets : List String}
    (leads : Leads adjacency origin target)
    (known : adjacency.lookup origin = some targets) :
    target ∈ targets := by
  obtain ⟨listed, lookedUp, member⟩ := leads
  rw [known, Option.some.injEq] at lookedUp
  rwa [lookedUp]

/-- Every target of the adjacency has targets of its own, if only none. -/
def TargetsKnown (adjacency : Adjacency) : Prop :=
  ∀ origin target, Leads adjacency origin target →
    ∃ targets, adjacency.lookup target = some targets

/-- A walk along `edge` that comes back to its first node and meets no node
twice before. -/
def IsClosedWalk (edge : String → String → Prop) (walk : List String) : Prop :=
  ∃ first between,
    walk = (first :: between) ++ [first] ∧
      (first :: between).Nodup ∧ walk.IsChain edge

/-- The last edge of one of the walks leads from `origin` to `target`. -/
def Closes (walks : List (List String)) (origin target : String) : Prop :=
  ∃ walk ∈ walks, ∃ initial, walk = initial ++ [origin, target]

/-- An edge that closes none of the walks. -/
def OpenEdge (edge : String → String → Prop) (walks : List (List String))
    (origin target : String) : Prop :=
  edge origin target ∧ ¬ Closes walks origin target

theorem Closes.of_subset
    {walks more : List (List String)} {origin target : String}
    (kept : walks ⊆ more) (closes : Closes walks origin target) :
    Closes more origin target := by
  obtain ⟨walk, member, initial, shape⟩ := closes
  exact ⟨walk, kept member, initial, shape⟩

/-- A closed walk is a cycle of the relation that it follows. -/
theorem IsClosedWalk.transGen
    {edge : String → String → Prop} {walk : List String}
    (closed : IsClosedWalk edge walk) :
    ∃ node, TransGen edge node node := by
  obtain ⟨first, between, shape, _, chain⟩ := closed
  rw [shape, List.cons_append] at chain
  refine ⟨first, ?_⟩
  cases between with
  | nil =>
      exact TransGen.single (List.isChain_cons_cons.mp chain).1
  | cons second rest =>
      obtain ⟨step, later⟩ := List.isChain_cons_cons.mp chain
      have reaches : ReflTransGen edge second first :=
        List.relationReflTransGen_of_exists_isChain_cons
          (rest ++ [first]) later (by simp)
      exact TransGen.head' step reaches

theorem IsClosedWalk.two_le_length
    {edge : String → String → Prop} {walk : List String}
    (closed : IsClosedWalk edge walk) :
    2 ≤ walk.length := by
  obtain ⟨first, between, shape, _, _⟩ := closed
  rw [shape]
  simp

private theorem target_of_isChain
    {edge : String → String → Prop} {first : String} {rest : List String}
    (chain : (first :: rest).IsChain edge) :
    ∀ id ∈ rest, ∃ origin, edge origin id := by
  induction rest generalizing first with
  | nil =>
      simp
  | cons next later inductionHypothesis =>
      obtain ⟨step, further⟩ := List.isChain_cons_cons.mp chain
      intro id member
      rcases List.mem_cons.mp member with equal | deeper
      · exact ⟨first, equal ▸ step⟩
      · exact inductionHypothesis further id deeper

/-- An edge enters every node of a closed walk. -/
theorem IsClosedWalk.entered
    {edge : String → String → Prop} {walk : List String}
    (closed : IsClosedWalk edge walk) :
    ∀ id ∈ walk, ∃ origin, edge origin id := by
  obtain ⟨first, between, shape, _, chain⟩ := closed
  rw [shape, List.cons_append] at chain
  have entered := target_of_isChain chain
  intro id member
  rw [shape, List.cons_append, List.mem_cons] at member
  rcases member with equal | later
  · exact entered id (by simp [equal])
  · exact entered id later

theorem takeWhile_ne_append
    {target : String} {nodes : List String} (member : target ∈ nodes) :
    ∃ before, nodes = nodes.takeWhile (· != target) ++ target :: before := by
  induction nodes with
  | nil =>
      simp at member
  | cons head tail inductionHypothesis =>
      by_cases same : head = target
      · exact ⟨tail, by simp [same]⟩
      · have later : target ∈ tail := by
          simpa [Ne.symm same] using member
        obtain ⟨before, shape⟩ := inductionHypothesis later
        refine ⟨before, ?_⟩
        rw [List.takeWhile_cons_of_pos (by simpa using same),
          List.cons_append, ← shape]

/-- The part of a duplicate-free path from one of its nodes on, closed by an
edge back to that node. -/
theorem closedWalk_isClosedWalk
    {adjacency : Adjacency} {node target : String}
    {targets : List String} {rest : List Frame}
    (nodup : (node :: pathNodes rest).Nodup)
    (path :
      (node :: pathNodes rest).IsChain
        (fun child parent => Leads adjacency parent child))
    (onPath : target ∈ node :: pathNodes rest)
    (edge : Leads adjacency node target) :
    IsClosedWalk (Leads adjacency)
      (closedWalk (⟨node, targets⟩ :: rest) target) := by
  let nodes := node :: pathNodes rest
  let behind := nodes.takeWhile (· != target)
  obtain ⟨before, split⟩ : ∃ before, nodes = behind ++ target :: before :=
    takeWhile_ne_append onPath
  have parts : nodes = (behind ++ [target]) ++ before := by
    rw [List.append_assoc, List.singleton_append]
    exact split
  have shape : closedWalk (⟨node, targets⟩ :: rest) target =
      (target :: behind.reverse) ++ [target] := rfl
  have upward : (target :: behind.reverse).IsChain (Leads adjacency) := by
    have downward : (behind ++ [target]).IsChain
        (fun child parent => Leads adjacency parent child) := by
      have whole := path
      rw [show node :: pathNodes rest = nodes from rfl, parts] at whole
      exact whole.left_of_append
    rw [← List.isChain_reverse] at downward
    simpa using downward
  have distinct : (target :: behind.reverse).Nodup := by
    have whole := nodup
    rw [show node :: pathNodes rest = nodes from rfl, parts] at whole
    have initial : (behind ++ [target]).Nodup := (List.nodup_append.mp whole).1
    rw [← List.nodup_reverse] at initial
    simpa using initial
  refine ⟨target, behind.reverse, shape, distinct, ?_⟩
  rw [shape]
  refine upward.append (List.isChain_singleton target) ?_
  -- The last node of the walk so far is the node at the end of the path.
  intro last lastMember next nextMember
  simp only [List.head?_cons, Option.mem_def, Option.some.injEq] at nextMember
  subst nextMember
  have lastNode : last = node := by
    by_cases same : node = target
    · have empty : behind = [] := by simp [behind, nodes, same]
      simp only [empty, List.reverse_nil, List.getLast?_singleton,
        Option.mem_def, Option.some.injEq] at lastMember
      rw [← lastMember, same]
    · have begins : behind = node :: (pathNodes rest).takeWhile (· != target) := by
        simp [behind, nodes, same]
      rw [begins, List.reverse_cons, ← List.cons_append,
        List.getLast?_append] at lastMember
      simpa [eq_comm] using lastMember
  rw [lastNode]
  exact edge

/-- The edge that closes a walk is the one that was just inspected. -/
theorem closedWalk_closes
    {node target : String} {targets : List String} {rest : List Frame}
    {walks : List (List String)} :
    Closes (closedWalk (⟨node, targets⟩ :: rest) target :: walks) node target := by
  refine ⟨_, List.mem_cons_self, ?_⟩
  by_cases same : node = target
  · exact ⟨[], by simp [closedWalk, same]⟩
  · refine ⟨target :: ((pathNodes rest).takeWhile (· != target)).reverse, ?_⟩
    simp [closedWalk, same]

/-! ## Steps -/

/-- Where the search stands. -/
structure Progress where
  visited : List String
  frames : List Frame
  found : List (List String)

namespace Progress

/-- One step of the search: it starts at a root, leaves the last node of the
path, closes a walk, enters a target, or passes over one. -/
inductive Step (adjacency : Adjacency) : Progress → Progress → Prop
  | start {visited targets : List String} {found : List (List String)}
      {root : String} :
      root ∉ visited →
      adjacency.lookup root = some targets →
      Step adjacency ⟨visited, [], found⟩
        ⟨root :: visited, [⟨root, targets⟩], found⟩
  | leave {visited : List String} {found : List (List String)}
      {node : String} {rest : List Frame} :
      Step adjacency ⟨visited, ⟨node, []⟩ :: rest, found⟩
        ⟨visited, rest, found⟩
  | close {visited targets : List String} {found : List (List String)}
      {node target : String} {rest : List Frame} :
      target ∈ node :: pathNodes rest →
      Step adjacency ⟨visited, ⟨node, target :: targets⟩ :: rest, found⟩
        ⟨visited, ⟨node, targets⟩ :: rest,
          closedWalk (⟨node, targets⟩ :: rest) target :: found⟩
  | enter {visited targets next : List String}
      {found : List (List String)} {node target : String}
      {rest : List Frame} :
      target ∉ node :: pathNodes rest →
      target ∉ visited →
      adjacency.lookup target = some next →
      Step adjacency ⟨visited, ⟨node, target :: targets⟩ :: rest, found⟩
        ⟨target :: visited, ⟨target, next⟩ :: ⟨node, targets⟩ :: rest, found⟩
  | pass {visited targets : List String} {found : List (List String)}
      {node target : String} {rest : List Frame} :
      target ∉ node :: pathNodes rest →
      target ∈ visited →
      Step adjacency ⟨visited, ⟨node, target :: targets⟩ :: rest, found⟩
        ⟨visited, ⟨node, targets⟩ :: rest, found⟩

/-- Any number of steps. -/
abbrev Run (adjacency : Adjacency) : Progress → Progress → Prop :=
  ReflTransGen (Step adjacency)

/-- The search is about to enter a node that the adjacency does not know. -/
def StuckAt (adjacency : Adjacency) (progress : Progress) (id : String) : Prop :=
  adjacency.lookup id = none ∧
    ∃ node targets rest,
      progress.frames = ⟨node, id :: targets⟩ :: rest

/-- The answer of a search is that of a run from `progress`: the run ends with
the path empty, or it gets stuck at the node that the answer names. -/
def Accounts (adjacency : Adjacency) (progress : Progress) :
    Except UnknownNode (List String × List (List String)) → Prop
  | .ok (entered, walks) => Run adjacency progress ⟨entered, [], walks⟩
  | .error unknown =>
      ∃ last, Run adjacency progress last ∧ StuckAt adjacency last unknown.id

theorem Accounts.head
    {adjacency : Adjacency} {progress next : Progress}
    {answer : Except UnknownNode (List String × List (List String))}
    (step : Step adjacency progress next)
    (later : Accounts adjacency next answer) :
    Accounts adjacency progress answer := by
  cases answer with
  | ok value =>
      exact ReflTransGen.head step later
  | error unknown =>
      obtain ⟨last, run, stuck⟩ := later
      exact ⟨last, ReflTransGen.head step run, stuck⟩

end Progress

open Progress

/-- The search from a path takes steps until the path is empty. -/
theorem search_accounts
    (adjacency : Adjacency) (visited : List String) (frames : List Frame)
    (found : List (List String)) :
    Accounts adjacency ⟨visited, frames, found⟩
      (search adjacency visited frames found) := by
  fun_induction search adjacency visited frames found with
  | case1 visited found =>
      exact ReflTransGen.refl
  | case2 visited found node rest inductionHypothesis =>
      exact Accounts.head Step.leave inductionHypothesis
  | case3 visited found node target targets rest onPath inductionHypothesis =>
      have member : target ∈ node :: pathNodes rest :=
        List.contains_iff_mem.mp onPath
      exact Accounts.head (Step.close member) inductionHypothesis
  | case4 visited found node target targets rest offPath fresh unknown =>
      exact ⟨_, ReflTransGen.refl, unknown, node, targets, rest, rfl⟩
  | case5 visited found node target targets rest offPath fresh next known
      inductionHypothesis =>
      have absent : target ∉ node :: pathNodes rest := by
        simpa using offPath
      have unseen : target ∉ visited := by
        simpa using fresh
      exact Accounts.head (Step.enter absent unseen known) inductionHypothesis
  | case6 visited found node target targets rest offPath seen
      inductionHypothesis =>
      have absent : target ∉ node :: pathNodes rest := by
        simpa using offPath
      have member : target ∈ visited := by
        simpa using seen
      exact Accounts.head (Step.pass absent member) inductionHypothesis

/-- A run only adds to the nodes entered. -/
theorem Progress.Run.visited_subset
    {adjacency : Adjacency} {first last : Progress}
    (run : Run adjacency first last) :
    first.visited ⊆ last.visited := by
  induction run with
  | refl =>
      exact List.Subset.refl _
  | tail _ step inductionHypothesis =>
      refine List.Subset.trans inductionHypothesis ?_
      cases step with
      | start _ _ => exact List.subset_cons_self _ _
      | leave => exact List.Subset.refl _
      | close _ => exact List.Subset.refl _
      | enter _ _ _ => exact List.subset_cons_self _ _
      | pass _ _ => exact List.Subset.refl _

/-- The search over all roots is one run. When it ends, every root has been
entered. -/
theorem searchAll_run
    {adjacency : Adjacency} {roots visited : List String}
    {found : List (List String)}
    (known : ∀ root ∈ roots, ∃ targets, adjacency.lookup root = some targets)
    (unstuck :
      ∀ last id, Run adjacency ⟨visited, [], found⟩ last →
        ¬ StuckAt adjacency last id) :
    ∃ entered walks,
      searchAll adjacency roots visited found = .ok walks.reverse ∧
        Run adjacency ⟨visited, [], found⟩ ⟨entered, [], walks⟩ ∧
        roots ⊆ entered := by
  induction roots generalizing visited found with
  | nil =>
      exact ⟨visited, found, rfl, ReflTransGen.refl, List.nil_subset _⟩
  | cons root roots inductionHypothesis =>
      have laterKnown :
          ∀ later ∈ roots, ∃ targets, adjacency.lookup later = some targets := by
        intro later member
        exact known later (List.mem_cons_of_mem root member)
      by_cases seen : root ∈ visited
      · obtain ⟨entered, walks, answer, run, covered⟩ :=
          inductionHypothesis laterKnown unstuck
        refine ⟨entered, walks, ?_, run, ?_⟩
        · rw [searchAll, if_pos (by simpa using seen)]
          exact answer
        · exact List.cons_subset.mpr ⟨run.visited_subset seen, covered⟩
      · obtain ⟨targets, lookedUp⟩ := known root List.mem_cons_self
        have start :
            Step adjacency ⟨visited, [], found⟩
              ⟨root :: visited, [⟨root, targets⟩], found⟩ :=
          Step.start seen lookedUp
        have accounts :=
          search_accounts adjacency (root :: visited) [⟨root, targets⟩] found
        cases answer : search adjacency (root :: visited) [⟨root, targets⟩] found with
        | error unknown =>
            rw [answer] at accounts
            obtain ⟨last, run, stuck⟩ := accounts
            exact absurd stuck (unstuck last unknown.id (ReflTransGen.head start run))
        | ok value =>
            obtain ⟨reached, closed⟩ := value
            rw [answer] at accounts
            have segment : Run adjacency ⟨visited, [], found⟩ ⟨reached, [], closed⟩ :=
              ReflTransGen.head start accounts
            have stillUnstuck :
                ∀ last id, Run adjacency ⟨reached, [], closed⟩ last →
                  ¬ StuckAt adjacency last id := by
              intro last id run
              exact unstuck last id (segment.trans run)
            obtain ⟨entered, walks, others, run, covered⟩ :=
              inductionHypothesis laterKnown stillUnstuck
            have rootReached : root ∈ reached :=
              accounts.visited_subset List.mem_cons_self
            refine ⟨entered, walks, ?_, segment.trans run, ?_⟩
            · rw [searchAll, if_neg (by simpa using seen)]
              simp only [lookedUp, answer]
              exact others
            · exact List.cons_subset.mpr
                ⟨run.visited_subset rootReached, covered⟩

/-! ## What a run preserves -/

/-- Of nodes in the order in which they were left, the last one first: every
edge closes one of the walks or leads to a node left before. -/
def Settled (adjacency : Adjacency) (walks : List (List String)) :
    List String → Prop
  | [] => True
  | node :: earlier =>
      (∀ target, Leads adjacency node target →
        Closes walks node target ∨ target ∈ earlier) ∧
      Settled adjacency walks earlier

/-- Of the nodes of a path, which will be left from its last one on: every edge
is still to be inspected, closes one of the walks, or leads to a node that is
left before. `left` are the nodes left before any node of the path. -/
def Arranged (adjacency : Adjacency) (walks : List (List String)) :
    List Frame → List String → Prop
  | [], _ => True
  | frame :: rest, left =>
      (∀ target, Leads adjacency frame.node target →
        target ∈ frame.targets ∨
          Closes walks frame.node target ∨ target ∈ left) ∧
      Arranged adjacency walks rest (frame.node :: left)

theorem Settled.of_subset
    {adjacency : Adjacency} {walks more : List (List String)}
    {left : List String} (kept : walks ⊆ more)
    (settled : Settled adjacency walks left) :
    Settled adjacency more left := by
  induction left with
  | nil =>
      trivial
  | cons node earlier inductionHypothesis =>
      obtain ⟨edges, others⟩ := settled
      refine ⟨?_, inductionHypothesis others⟩
      intro target edge
      rcases edges target edge with closes | before
      · exact Or.inl (closes.of_subset kept)
      · exact Or.inr before

theorem Arranged.of_subset
    {adjacency : Adjacency} {walks more : List (List String)}
    {frames : List Frame} {left wider : List String}
    (kept : walks ⊆ more) (grown : left ⊆ wider)
    (arranged : Arranged adjacency walks frames left) :
    Arranged adjacency more frames wider := by
  induction frames generalizing left wider with
  | nil =>
      trivial
  | cons frame rest inductionHypothesis =>
      obtain ⟨edges, others⟩ := arranged
      refine ⟨?_, inductionHypothesis (List.cons_subset_cons frame.node grown) others⟩
      intro target edge
      rcases edges target edge with pending | closes | before
      · exact Or.inl pending
      · exact Or.inr (Or.inl (closes.of_subset kept))
      · exact Or.inr (Or.inr (grown before))

/-- A target is inspected once it closes a walk or was left before. -/
theorem Arranged.inspect
    {adjacency : Adjacency} {walks : List (List String)}
    {node target : String} {targets left : List String} {rest : List Frame}
    (arranged :
      Arranged adjacency walks (⟨node, target :: targets⟩ :: rest) left)
    (placed : Closes walks node target ∨ target ∈ left) :
    Arranged adjacency walks (⟨node, targets⟩ :: rest) left := by
  obtain ⟨edges, others⟩ := arranged
  refine ⟨?_, others⟩
  intro other edge
  rcases edges other edge with pending | done
  · rcases List.mem_cons.mp pending with equal | later
    · rw [equal]
      exact Or.inr placed
    · exact Or.inl later
  · exact Or.inr done

theorem Settled.target_mem
    {adjacency : Adjacency} {walks : List (List String)}
    {left : List String} {node target : String}
    (settled : Settled adjacency walks left) (member : node ∈ left)
    (edge : OpenEdge (Leads adjacency) walks node target) :
    target ∈ left := by
  induction left with
  | nil =>
      simp at member
  | cons head earlier inductionHypothesis =>
      obtain ⟨edges, others⟩ := settled
      rcases List.mem_cons.mp member with equal | later
      · subst equal
        rcases edges target edge.1 with closes | before
        · exact absurd closes edge.2
        · exact List.mem_cons_of_mem node before
      · exact List.mem_cons_of_mem head (inductionHypothesis others later)

/-- From nodes that were left, edges that close no walk lead nowhere else. -/
theorem Settled.reached_mem
    {adjacency : Adjacency} {walks : List (List String)}
    {left : List String} {node last : String}
    (settled : Settled adjacency walks left) (member : node ∈ left)
    (reaches : ReflTransGen (OpenEdge (Leads adjacency) walks) node last) :
    last ∈ left := by
  induction reaches with
  | refl =>
      exact member
  | tail _ edge reached =>
      exact settled.target_mem reached edge

/-- Edges of settled nodes that close no walk lie on no cycle. -/
theorem Settled.acyclic
    {adjacency : Adjacency} {walks : List (List String)}
    {left : List String} (settled : Settled adjacency walks left) :
    ∀ node ∈ left, ¬ TransGen (OpenEdge (Leads adjacency) walks) node node := by
  induction left with
  | nil =>
      simp
  | cons head earlier inductionHypothesis =>
      obtain ⟨edges, others⟩ := settled
      have acyclicEarlier := inductionHypothesis others
      intro node member cycle
      rcases List.mem_cons.mp member with equal | later
      · subst equal
        -- The first edge of the cycle leads to an earlier node, and from there
        -- no edge leads back.
        obtain ⟨second, edge, back⟩ := TransGen.head'_iff.mp cycle
        have secondEarlier : second ∈ earlier := by
          rcases edges second edge.1 with closes | before
          · exact absurd closes edge.2
          · exact before
        have nodeEarlier : node ∈ earlier :=
          others.reached_mem secondEarlier back
        exact acyclicEarlier node nodeEarlier cycle
      · exact acyclicEarlier node later cycle

/-- What holds wherever the search stands. `left` are the nodes that it has
left, the last one first. -/
structure Invariant (adjacency : Adjacency) (progress : Progress)
    (left : List String) : Prop where
  distinct : (pathNodes progress.frames).Nodup
  connected :
    (pathNodes progress.frames).IsChain
      (fun child parent => Leads adjacency parent child)
  pending :
    ∀ frame ∈ progress.frames, ∀ target ∈ frame.targets,
      Leads adjacency frame.node target
  entered :
    ∀ id, id ∈ progress.visited ↔
      id ∈ pathNodes progress.frames ∨ id ∈ left
  arranged : Arranged adjacency progress.found progress.frames left
  settled : Settled adjacency progress.found left
  closed : ∀ walk ∈ progress.found, IsClosedWalk (Leads adjacency) walk

theorem invariant_initial (adjacency : Adjacency) :
    Invariant adjacency ⟨[], [], []⟩ [] where
  distinct := List.nodup_nil
  connected := List.isChain_nil
  pending := by simp
  entered := by simp
  arranged := trivial
  settled := trivial
  closed := by simp

theorem Invariant.pending_inspect
    {adjacency : Adjacency} {visited targets left : List String}
    {found : List (List String)} {node target : String} {rest : List Frame}
    (invariant :
      Invariant adjacency
        ⟨visited, ⟨node, target :: targets⟩ :: rest, found⟩ left) :
    Leads adjacency node target ∧
      ∀ frame ∈ (⟨node, targets⟩ :: rest : List Frame),
        ∀ other ∈ frame.targets, Leads adjacency frame.node other := by
  have pending := invariant.pending
  refine ⟨pending _ List.mem_cons_self target List.mem_cons_self, ?_⟩
  intro frame member other otherMember
  rcases List.mem_cons.mp member with equal | below
  · subst equal
    exact pending _ List.mem_cons_self other (List.mem_cons_of_mem target otherMember)
  · exact pending frame (List.mem_cons_of_mem _ below) other otherMember

/-- One step keeps the invariant. -/
theorem Invariant.step
    {adjacency : Adjacency} {progress next : Progress}
    {left : List String} (invariant : Invariant adjacency progress left)
    (step : Step adjacency progress next) :
    ∃ leftNext, Invariant adjacency next leftNext := by
  have ⟨distinct, connected, pending, entered, arranged, settled, closed⟩ :=
    invariant
  cases step with
  | @start visited targets found root fresh known =>
      refine ⟨left, List.nodup_singleton root, List.isChain_singleton root,
        ?_, ?_, ⟨?_, trivial⟩, settled, closed⟩
      · intro frame member target targetMember
        rw [List.mem_singleton.mp member] at targetMember ⊢
        exact ⟨targets, known, targetMember⟩
      · intro id
        simp [entered id]
      · intro target edge
        exact Or.inl (edge.mem_targets known)
  | @leave visited found node rest =>
      obtain ⟨edges, others⟩ := arranged
      refine ⟨node :: left, (List.nodup_cons.mp distinct).2, connected.tail,
        ?_, ?_, others, ⟨?_, settled⟩, closed⟩
      · intro frame member
        exact pending frame (List.mem_cons_of_mem _ member)
      · intro id
        simp only [entered id, pathNodes_cons, List.mem_cons]
        tauto
      · intro target edge
        rcases edges target edge with inspected | closes | before
        · simp at inspected
        · exact Or.inl closes
        · exact Or.inr before
  | @close visited targets found node target rest onPath =>
      obtain ⟨edge, stillPending⟩ := invariant.pending_inspect
      have kept : found ⊆ closedWalk (⟨node, targets⟩ :: rest) target :: found :=
        List.subset_cons_self _ _
      refine ⟨left, distinct, connected, stillPending, entered, ?_,
        settled.of_subset kept, ?_⟩
      · exact (arranged.of_subset kept (List.Subset.refl left)).inspect
          (Or.inl closedWalk_closes)
      · intro walk member
        rcases List.mem_cons.mp member with equal | older
        · rw [equal]
          exact closedWalk_isClosedWalk distinct connected onPath edge
        · exact closed walk older
  | @enter visited targets listed found node target rest offPath fresh known =>
      obtain ⟨edge, stillPending⟩ := invariant.pending_inspect
      -- The target is left before the node that it is entered from.
      have below : Arranged adjacency found (⟨node, targets⟩ :: rest) (target :: left) :=
        (arranged.of_subset (List.Subset.refl found)
          (List.subset_cons_self target left)).inspect
            (Or.inr List.mem_cons_self)
      refine ⟨left, List.nodup_cons.mpr ⟨offPath, distinct⟩,
        List.isChain_cons_cons.mpr ⟨edge, connected⟩,
        ?_, ?_, ⟨?_, below⟩, settled, closed⟩
      · intro frame member other otherMember
        rcases List.mem_cons.mp member with equal | deeper
        · subst equal
          exact ⟨listed, known, otherMember⟩
        · exact stillPending frame deeper other otherMember
      · intro id
        have before := entered id
        simp only [pathNodes_cons, List.mem_cons] at before ⊢
        tauto
      · intro other edge
        exact Or.inl (edge.mem_targets known)
  | @pass visited targets found node target rest offPath seen =>
      obtain ⟨_, stillPending⟩ := invariant.pending_inspect
      have wasLeft : target ∈ left :=
        ((entered target).mp seen).resolve_left offPath
      exact ⟨left, distinct, connected, stillPending, entered,
        arranged.inspect (Or.inr wasLeft), settled, closed⟩

/-- A run keeps the invariant. -/
theorem Invariant.run
    {adjacency : Adjacency} {first last : Progress} {left : List String}
    (invariant : Invariant adjacency first left)
    (run : Run adjacency first last) :
    ∃ leftLast, Invariant adjacency last leftLast := by
  induction run with
  | refl =>
      exact ⟨left, invariant⟩
  | tail _ step inductionHypothesis =>
      obtain ⟨_, before⟩ := inductionHypothesis
      exact before.step step

/-- Where all targets are known, no search gets stuck. -/
theorem Invariant.not_stuckAt
    {adjacency : Adjacency} {progress : Progress} {left : List String}
    {id : String} (targetsKnown : TargetsKnown adjacency)
    (invariant : Invariant adjacency progress left) :
    ¬ StuckAt adjacency progress id := by
  intro given
  obtain ⟨unknown, node, targets, rest, shape⟩ := given
  have edge : Leads adjacency node id := by
    refine invariant.pending ⟨node, id :: targets⟩ ?_ id List.mem_cons_self
    rw [shape]
    exact List.mem_cons_self
  obtain ⟨found, lookedUp⟩ := targetsKnown node id edge
  rw [unknown] at lookedUp
  cases lookedUp

/-! ## The whole search -/

/-- The search over all nodes ends, and it is one run that enters every
node. -/
theorem searchAll_run_of_targetsKnown
    {adjacency : Adjacency} (targetsKnown : TargetsKnown adjacency) :
    ∃ entered walks,
      searchAll adjacency (adjacency.map (·.1)) [] [] = .ok walks.reverse ∧
        Run adjacency ⟨[], [], []⟩ ⟨entered, [], walks⟩ ∧
        adjacency.map (·.1) ⊆ entered := by
  have rootsKnown :
      ∀ root ∈ adjacency.map (·.1),
        ∃ targets, adjacency.lookup root = some targets := by
    intro root member
    exact mem_keys_iff.mp member
  have unstuck :
      ∀ last id, Run adjacency ⟨[], [], []⟩ last →
        ¬ StuckAt adjacency last id := by
    intro last id run
    obtain ⟨_, invariant⟩ := (invariant_initial adjacency).run run
    exact invariant.not_stuckAt targetsKnown
  exact searchAll_run rootsKnown unstuck

/-- The walks of the search over all nodes are closed, and the edges that close
none of them lie on no cycle. -/
theorem searchAll_spec
    {adjacency : Adjacency} (targetsKnown : TargetsKnown adjacency) :
    ∃ walks,
      searchAll adjacency (adjacency.map (·.1)) [] [] = .ok walks ∧
        (∀ walk ∈ walks, IsClosedWalk (Leads adjacency) walk) ∧
        ∀ node, ¬ TransGen (OpenEdge (Leads adjacency) walks) node node := by
  obtain ⟨entered, walks, answer, run, covered⟩ :=
    searchAll_run_of_targetsKnown targetsKnown
  obtain ⟨left, invariant⟩ := (invariant_initial adjacency).run run
  have settled : Settled adjacency walks.reverse left :=
    invariant.settled.of_subset (fun _ member => List.mem_reverse.mpr member)
  refine ⟨walks.reverse, answer, ?_, ?_⟩
  · intro walk member
    exact invariant.closed walk (List.mem_reverse.mp member)
  · intro node cycle
    obtain ⟨second, edge, _⟩ := TransGen.head'_iff.mp cycle
    obtain ⟨targets, lookedUp, _⟩ := edge.1
    have known : node ∈ adjacency.map (·.1) := mem_keys_iff.mpr ⟨targets, lookedUp⟩
    have wasLeft : node ∈ left := by
      rcases (invariant.entered node).mp (covered known) with onPath | wasLeft
      · simp at onPath
      · exact wasLeft
    exact settled.acyclic node wasLeft cycle

end ModuleAtlas.Graph
