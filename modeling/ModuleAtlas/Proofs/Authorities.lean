import ModuleAtlas.Net.Url

/-!
# What the check of an address sees

The check of an address sees the part with the host and nothing else.  Here it
is told by that part alone which addresses cannot be taken apart and which are
accepted.
-/

namespace ModuleAtlas.Net

/-- The part with the host that the check of an address sees. -/
def seenPart (url : String) : List Char :=
  netloc (bareAddress url).toList

/-! ## Brackets -/

/-- Brackets come in both kinds or not at all, and hold an address of the sixth
or of a future version. -/
def WellBracketed (part : List Char) : Prop :=
  ('[' ∈ part ↔ ']' ∈ part) ∧
    ('[' ∈ part →
      if (betweenBrackets part).head? = some 'v' then
        isFutureAddress (betweenBrackets part) = true
      else
        ∃ value, Address.ofText? (String.ofList (betweenBrackets part)) = some (.v6 value))

theorem checkBrackets_eq_ok_iff {part : List Char} :
    checkBrackets part = .ok () ↔ WellBracketed part := by
  unfold checkBrackets WellBracketed
  by_cases opens : '[' ∈ part
  · by_cases closes : ']' ∈ part
    · simp only [List.contains_eq_mem, opens, closes, decide_true, bne_self_eq_false,
        Bool.false_eq_true, if_false, Bool.not_true, true_and, true_implies]
      by_cases future : (betweenBrackets part).head? = some 'v'
      · rw [if_pos future, if_pos future]
        cases isFutureAddress (betweenBrackets part) with
        | true => simp
        | false => simp
      · rw [if_neg future, if_neg future]
        cases Address.ofText? (String.ofList (betweenBrackets part)) with
        | none => simp
        | some address =>
            cases address with
            | v4 value => simp
            | v6 value => simp
    · simp [opens, closes]
  · by_cases closes : ']' ∈ part
    · simp [opens, closes]
    · simp [opens, closes]

/-- The part can be taken apart: its brackets are sound, and it holds no
characters that turn into marks of the address. -/
def IsReadable (part : List Char) : Prop :=
  WellBracketed part ∧ ∀ character ∈ part, isDeceptive character = false

/-- The host that the check reads from a part that can be taken apart. -/
def readHost (part : List Char) : Option String :=
  if (hostOf part).isEmpty then none else some (lowerHost (hostOf part))

theorem host?_eq_ok_iff {url : String} {host : Option String} :
    host? url = .ok host ↔
      IsReadable (netloc url.toList) ∧ host = readHost (netloc url.toList) := by
  unfold IsReadable
  rw [← checkBrackets_eq_ok_iff]
  cases brackets : checkBrackets (netloc url.toList) with
  | error fault =>
      simp [host?, brackets, bind, Except.bind]
  | ok _ =>
      cases deceptive : (netloc url.toList).any isDeceptive with
      | true =>
          have found : ¬∀ character ∈ netloc url.toList, isDeceptive character = false := by
            simpa using deceptive
          simp [host?, brackets, deceptive, found, bind, Except.bind, throw, throwThe,
            MonadExceptOf.throw]
      | false =>
          have absent : ∀ character ∈ netloc url.toList, isDeceptive character = false := by
            simpa using deceptive
          have read : host? url = .ok (readHost (netloc url.toList)) := by
            simp [host?, brackets, deceptive, readHost, bind, Except.bind, pure, Except.pure]
          rw [read, Except.ok.injEq, eq_comm]
          exact (and_iff_right ⟨rfl, absent⟩).symm

/-- An address cannot be taken apart exactly when the part that the check sees
cannot be. -/
theorem exists_malformed_iff {url : String} :
    (∃ fault, ensureLocal url = .error (.malformed fault)) ↔ ¬IsReadable (seenPart url) := by
  unfold ensureLocal
  cases read : host? (bareAddress url) with
  | error fault =>
      refine iff_of_true ⟨fault, rfl⟩ ?_
      intro readable
      have readsHost := host?_eq_ok_iff.mpr ⟨readable, rfl⟩
      rw [read] at readsHost
      cases readsHost
  | ok host =>
      refine iff_of_false ?_ (not_not_intro (host?_eq_ok_iff.mp read).1)
      intro given
      obtain ⟨fault, refused⟩ := given
      cases host with
      | none => cases refused
      | some host =>
          dsimp only at refused
          split at refused
          · cases refused
          · cases refused

/-- The check lets a part pass: it can be taken apart, and the host in it, if
there is one, is this machine. -/
def Passes (part : List Char) : Prop :=
  IsReadable part ∧ ∀ host, readHost part = some host → isLocalHost host = true

/-- An address is accepted exactly when the check lets the part that it sees
pass. -/
theorem ensureLocal_eq_ok_iff {url address : String} :
    ensureLocal url = .ok address ↔ bareAddress url = address ∧ Passes (seenPart url) := by
  unfold ensureLocal
  cases read : host? (bareAddress url) with
  | error fault =>
      refine iff_of_false (by simp) ?_
      intro given
      obtain ⟨_, readable, _⟩ := given
      have readsHost := host?_eq_ok_iff.mpr ⟨readable, rfl⟩
      rw [read] at readsHost
      cases readsHost
  | ok host =>
      obtain ⟨readable, sameHost⟩ := host?_eq_ok_iff.mp read
      unfold Passes seenPart
      rw [and_iff_right readable, ← sameHost]
      cases host with
      | none => simp
      | some host =>
          dsimp only
          cases isLocal : isLocalHost host with
          | true => simp [isLocal]
          | false => simp [isLocal]

end ModuleAtlas.Net
