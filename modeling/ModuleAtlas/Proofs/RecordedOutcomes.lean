import ModuleAtlas.Journal.Note

/-!
# Outcomes of computations that take notes

Notes are only ever added, so they decide nothing.  `Gives computation result`
says that a computation has the given result whatever notes were taken before
it, and there is one law of it for every way in which computations are put
together.
-/

namespace ModuleAtlas

variable {ε δ α β : Type}

/-! ## Results of steps -/

theorem bind_eq_ok_iff
    {result : Except ε α} {next : α → Except ε β} {last : β} :
    (result >>= next) = .ok last ↔ ∃ value, result = .ok value ∧ next value = .ok last := by
  constructor
  · intro succeeds
    cases result with
    | ok value => exact ⟨value, rfl, succeeds⟩
    | error fault => cases succeeds
  · intro given
    obtain ⟨value, rfl, succeeds⟩ := given
    exact succeeds

theorem bind_eq_error_iff
    {result : Except ε α} {next : α → Except ε β} {fault : ε} :
    (result >>= next) = .error fault ↔
      result = .error fault ∨ ∃ value, result = .ok value ∧ next value = .error fault := by
  cases result with
  | ok value => simp [bind, Except.bind]
  | error other => simp [bind, Except.bind]

/-- A last step that cannot fail leaves the faults as they are. -/
theorem bind_pure_eq_error_iff
    {result : Except ε α} {last : α → β} {fault : ε} :
    (result >>= fun value => pure (last value)) = .error fault ↔ result = .error fault := by
  cases result with
  | ok value => simp [pure, Except.pure, bind, Except.bind]
  | error other => simp [bind, Except.bind]

@[simp]
theorem mapError_ok (reword : ε → δ) (value : α) :
    (Except.ok value).mapError reword = .ok value := rfl

@[simp]
theorem mapError_error (reword : ε → δ) (fault : ε) :
    (Except.error fault : Except ε α).mapError reword = .error (reword fault) := rfl

theorem mapError_eq_ok_iff
    {result : Except ε α} {reword : ε → δ} {value : α} :
    result.mapError reword = .ok value ↔ result = .ok value := by
  cases result with
  | ok other => simp
  | error fault => simp

theorem mapError_eq_error_iff
    {result : Except ε α} {reword : ε → δ} {fault : δ} :
    result.mapError reword = .error fault ↔
      ∃ own, result = .error own ∧ reword own = fault := by
  cases result with
  | ok value => simp
  | error other => simp

theorem toOption_eq_some_iff {result : Except ε α} {value : α} :
    result.toOption = some value ↔ result = .ok value := by
  cases result <;> simp [Except.toOption]

/-- A result of which a part is seen is had, and the part is its own. -/
theorem exists_ok_of_seen
    {result : Except ε α} {part : α → β} {seen : β}
    (computed : result.toOption.map part = some seen) :
    ∃ value, result = .ok value ∧ part value = seen := by
  obtain ⟨value, had, own⟩ := Option.map_eq_some_iff.mp computed
  exact ⟨value, toOption_eq_some_iff.mp had, own⟩

/-- Steps for all items of a list fail with the fault of one of them. -/
theorem exists_error_of_mapM
    {step : α → Except ε β} {items : List α} {fault : ε}
    (failed : items.mapM step = .error fault) :
    ∃ item ∈ items, step item = .error fault := by
  induction items with
  | nil =>
      cases failed
  | cons item rest inductionHypothesis =>
      rw [List.mapM_cons] at failed
      rcases bind_eq_error_iff.mp failed with own | ⟨value, _, further⟩
      · exact ⟨item, List.mem_cons_self, own⟩
      · obtain ⟨later, member, raised⟩ := inductionHypothesis (bind_pure_eq_error_iff.mp further)
        exact ⟨later, List.mem_cons_of_mem item member, raised⟩

/-- Steps for all items of a list succeed only if each of them does. -/
theorem exists_ok_of_mapM
    {step : α → Except ε β} {items : List α} {values : List β}
    (succeeded : items.mapM step = .ok values) :
    ∀ item ∈ items, ∃ value, step item = .ok value := by
  induction items generalizing values with
  | nil =>
      simp
  | cons item rest inductionHypothesis =>
      rw [List.mapM_cons] at succeeded
      obtain ⟨value, own, succeeded⟩ := bind_eq_ok_iff.mp succeeded
      obtain ⟨others, further, _⟩ := bind_eq_ok_iff.mp succeeded
      exact List.forall_mem_cons.mpr ⟨⟨value, own⟩, inductionHypothesis further⟩

/-- A result as obstacles decide it: a fault is one of them, and a value with the
property is had only where there are none. -/
inductive DecidedBy (obstacle : ε → Prop) (property : α → Prop) : Except ε α → Prop
  | fails {fault : ε} :
      obstacle fault →
      DecidedBy obstacle property (.error fault)
  | succeeds {value : α} :
      (∀ fault, ¬obstacle fault) →
      property value →
      DecidedBy obstacle property (.ok value)

theorem DecidedBy.of_error
    {obstacle : ε → Prop} {property : α → Prop} {fault : ε}
    (decided : DecidedBy obstacle property (.error fault)) :
    obstacle fault := by
  cases decided with
  | fails stands => exact stands

theorem DecidedBy.of_ok
    {obstacle : ε → Prop} {property : α → Prop} {value : α}
    (decided : DecidedBy obstacle property (.ok value)) :
    (∀ fault, ¬obstacle fault) ∧ property value := by
  cases decided with
  | succeeds clear holds => exact ⟨clear, holds⟩

/-- A value is had exactly where there are no obstacles. -/
theorem DecidedBy.exists_ok_iff
    {obstacle : ε → Prop} {property : α → Prop} {result : Except ε α}
    (decided : DecidedBy obstacle property result) :
    (∃ value, result = .ok value) ↔ ∀ fault, ¬obstacle fault := by
  cases decided with
  | fails stands => exact iff_of_false (by simp) fun clear => clear _ stands
  | succeeds clear _ => exact iff_of_true ⟨_, rfl⟩ clear

/-- A fault of some kind is met exactly where there is an obstacle of that kind,
if all obstacles are of one kind. -/
theorem DecidedBy.exists_error_iff
    {obstacle : ε → Prop} {property : α → Prop} {result : Except ε α}
    (decided : DecidedBy obstacle property result) {kind : ε → β}
    (alike : ∀ fault other, obstacle fault → obstacle other → kind fault = kind other)
    (wanted : β) :
    (∃ fault, result = .error fault ∧ kind fault = wanted) ↔
      ∃ fault, obstacle fault ∧ kind fault = wanted := by
  cases decided with
  | @fails fault stands =>
      constructor
      · rintro ⟨_, same, rfl⟩
        cases same
        exact ⟨fault, stands, rfl⟩
      · rintro ⟨other, standsToo, rfl⟩
        exact ⟨fault, rfl, alike fault other stands standsToo⟩
  | succeeds clear _ =>
      constructor
      · rintro ⟨_, same, _⟩
        cases same
      · rintro ⟨fault, stands, _⟩
        exact absurd stands (clear fault)

/-! ## Notes decide nothing -/

namespace Journal.Recorded

/-- The computation has this result, whatever notes were taken before. -/
def Gives (computation : Recorded ε α) (result : Except ε α) : Prop :=
  ∀ before, (StateT.run (ExceptT.run computation) before).1 = result

theorem Gives.outcome
    {computation : Recorded ε α} {result : Except ε α}
    (gives : Gives computation result) :
    computation.outcome.1 = result :=
  gives []

theorem gives_pure (value : α) :
    Gives (pure value : Recorded ε α) (.ok value) :=
  fun _ => rfl

theorem gives_throw (fault : ε) :
    Gives (throw fault : Recorded ε α) (.error fault) :=
  fun _ => rfl

theorem gives_ofExcept (result : Except ε α) :
    Gives (ofExcept result) result := by
  cases result with
  | ok value => exact gives_pure value
  | error fault => exact gives_throw fault

theorem run_bind
    (computation : Recorded ε α) (next : α → Recorded ε β) (before : List Note) :
    StateT.run (ExceptT.run (computation >>= next)) before =
      match StateT.run (ExceptT.run computation) before with
      | (.ok value, notes) => StateT.run (ExceptT.run (next value)) notes
      | (.error fault, notes) => (.error fault, notes) := by
  simp only [ExceptT.run_bind, StateT.run_bind]
  rcases StateT.run (ExceptT.run computation) before with ⟨outcome, notes⟩
  cases outcome with
  | ok value => rfl
  | error fault => rfl

theorem run_adapt (reword : ε → δ) (computation : Recorded ε α) (before : List Note) :
    StateT.run (ExceptT.run (ExceptT.adapt reword computation)) before =
      ((StateT.run (ExceptT.run computation) before).1.mapError reword,
        (StateT.run (ExceptT.run computation) before).2) :=
  rfl

/-- What follows a computation decides, unless that fails. -/
theorem Gives.bind
    {computation : Recorded ε α} {result : Except ε α}
    {next : α → Recorded ε β} {results : α → Except ε β}
    (first : Gives computation result)
    (later : ∀ value, result = .ok value → Gives (next value) (results value)) :
    Gives (computation >>= next) (result >>= results) := by
  intro before
  have own := first before
  rw [run_bind]
  rcases ran : StateT.run (ExceptT.run computation) before with ⟨outcome, notes⟩
  rw [ran] at own
  dsimp only at own
  subst own
  cases outcome with
  | ok value => exact later value rfl notes
  | error fault => rfl

/-- What follows a computation that succeeds decides. -/
theorem Gives.follow
    {computation : Recorded ε α} {value : α}
    {next : α → Recorded ε β} {result : Except ε β}
    (first : Gives computation (.ok value)) (later : Gives (next value) result) :
    Gives (computation >>= next) result := by
  have sameValue : ∀ other, Except.ok value = (Except.ok other : Except ε α) →
      Gives (next other) result := by
    intro other same
    cases same
    exact later
  exact first.bind sameValue

/-- Nothing follows a fault. -/
theorem gives_throw_bind (fault : ε) (next : α → Recorded ε β) :
    Gives (throw fault >>= next) (.error fault) :=
  fun _ => rfl

/-- After notes the computation goes on as without them. -/
theorem Gives.afterNotes
    {notes : List Note} {next : Unit → Recorded ε β} {result : Except ε β}
    (later : Gives (next ()) result) :
    Gives (takeNotes notes >>= next) result :=
  fun before => later (before ++ notes)

theorem Gives.afterNote
    {level : Level} {stage text : String} {next : Unit → Recorded ε β}
    {result : Except ε β} (later : Gives (next ()) result) :
    Gives (takeNote level stage text >>= next) result :=
  later.afterNotes

/-- A note about its value leaves the result of a computation as it is. -/
theorem Gives.thenNote
    {level : Level} {stage : String} {text : α → String}
    {computation : Recorded ε α} {result : Except ε α}
    (gives : Gives computation result) :
    Gives (computation >>= fun value => takeNote level stage (text value) >>= fun _ => pure value)
      result := by
  have continued :=
    gives.bind fun value _ =>
      @Gives.afterNote ε α level stage (text value) (fun _ => pure value) _ (gives_pure value)
  cases result with
  | ok value => exact continued
  | error fault => exact continued

/-- Faults told in other words leave the rest as it is. -/
theorem Gives.adapt
    {computation : Recorded ε α} {result : Except ε α}
    (reword : ε → δ) (gives : Gives computation result) :
    Gives (ExceptT.adapt reword computation) (result.mapError reword) := by
  intro before
  rw [run_adapt, gives before]

/-! ## Notes are only ever added -/

/-- The computation leaves the notes in place that were taken before it. -/
def Keeps (computation : Recorded ε α) : Prop :=
  ∀ before, before <+: (StateT.run (ExceptT.run computation) before).2

/-- The computation takes the note, whatever notes were taken before it. -/
def Takes (computation : Recorded ε α) (note : Note) : Prop :=
  ∀ before, note ∈ (StateT.run (ExceptT.run computation) before).2

theorem keeps_pure (value : α) : Keeps (pure value : Recorded ε α) :=
  fun before => List.prefix_refl before

theorem keeps_throw (fault : ε) : Keeps (throw fault : Recorded ε α) :=
  fun before => List.prefix_refl before

theorem keeps_ofExcept (result : Except ε α) : Keeps (ofExcept result) := by
  cases result with
  | ok value => exact keeps_pure value
  | error fault => exact keeps_throw fault

theorem keeps_takeNotes (notes : List Note) : Keeps (takeNotes notes : Recorded ε Unit) :=
  fun before => List.prefix_append before notes

theorem Keeps.bind
    {computation : Recorded ε α} {next : α → Recorded ε β}
    (first : Keeps computation) (later : ∀ value, Keeps (next value)) :
    Keeps (computation >>= next) := by
  intro before
  have own := first before
  rw [run_bind]
  rcases ran : StateT.run (ExceptT.run computation) before with ⟨outcome, notes⟩
  rw [ran] at own
  cases outcome with
  | ok value => exact own.trans (later value notes)
  | error fault => exact own

theorem takes_takeNotes {notes : List Note} {note : Note} (member : note ∈ notes) :
    Takes (takeNotes notes : Recorded ε Unit) note :=
  fun before => List.mem_append_right before member

/-- A note stays, whatever follows. -/
theorem Takes.bind
    {computation : Recorded ε α} {next : α → Recorded ε β} {note : Note}
    (first : Takes computation note) (later : ∀ value, Keeps (next value)) :
    Takes (computation >>= next) note := by
  intro before
  have own := first before
  rw [run_bind]
  rcases ran : StateT.run (ExceptT.run computation) before with ⟨outcome, notes⟩
  rw [ran] at own
  cases outcome with
  | ok value => exact (later value notes).mem own
  | error fault => exact own

/-- What follows a computation that succeeds takes its notes. -/
theorem Takes.after
    {computation : Recorded ε α} {value : α} {next : α → Recorded ε β} {note : Note}
    (later : Takes (next value) note) (first : Gives computation (.ok value)) :
    Takes (computation >>= next) note := by
  intro before
  have own := first before
  rw [run_bind]
  rcases ran : StateT.run (ExceptT.run computation) before with ⟨outcome, notes⟩
  rw [ran] at own
  dsimp only at own
  subst own
  exact later notes

theorem Takes.afterResult
    {result : Except ε α} {value : α} {next : α → Recorded ε β} {note : Note}
    (later : Takes (next value) note) (succeeds : result = .ok value) :
    Takes (ofExcept result >>= next) note := by
  have first := gives_ofExcept result
  rw [succeeds] at first ⊢
  exact later.after first

theorem Takes.afterNotes
    {notes : List Note} {next : Unit → Recorded ε β} {note : Note}
    (later : Takes (next ()) note) :
    Takes (takeNotes notes >>= next) note :=
  fun before => later (before ++ notes)

theorem Takes.adapt
    {computation : Recorded ε α} {note : Note} (reword : ε → δ)
    (takes : Takes computation note) :
    Takes (ExceptT.adapt reword computation) note :=
  takes

theorem Takes.outcome
    {computation : Recorded ε α} {note : Note} (takes : Takes computation note) :
    note ∈ computation.outcome.2 :=
  takes []

end Journal.Recorded

end ModuleAtlas
