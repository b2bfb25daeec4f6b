import ModuleAtlas.Proofs.AnalysisOutcome

/-!
# Types of projects and their architectures

The type of a project is told from its files and from one dependency, its
architecture from the names of its technologies and from its files.  Both ask
in an order of their own.  They agree on what they tell all the same, as the
technologies carry the names that are asked for.
-/

namespace ModuleAtlas

/-! ## Technologies of a project -/

namespace Stack

section

variable {dependencies : List (RawText × RawText)} {markers : List String}

theorem mem_declared_iff {technology : Technology} :
    technology ∈ declared dependencies ↔
      ∃ entry ∈ known, ∃ version, dependencies.lookup (entry.package : RawText) = some version ∧
        technology = ⟨entry.name, version, entry.category, entry.role⟩ := by
  simp only [declared, List.mem_filterMap, Option.map_eq_some_iff]
  constructor
  · rintro ⟨entry, entryMember, version, found, rfl⟩
    exact ⟨entry, entryMember, version, found, rfl⟩
  · rintro ⟨entry, entryMember, version, found, rfl⟩
    exact ⟨entry, entryMember, version, found, rfl⟩

theorem subset_addGiveaway (stack : List Technology) (giveaway : String × Known) :
    stack ⊆ addGiveaway dependencies markers stack giveaway := by
  unfold addGiveaway
  dsimp only
  split
  · exact List.Subset.refl stack
  · split
    · exact List.subset_append_left stack _
    · exact List.Subset.refl stack

theorem mem_addGiveaway
    {stack : List Technology} {giveaway : String × Known} {technology : Technology}
    (member : technology ∈ addGiveaway dependencies markers stack giveaway) :
    technology ∈ stack ∨ technology.name = giveaway.2.name := by
  unfold addGiveaway at member
  dsimp only at member
  split at member
  · exact Or.inl member
  · split at member
    · rcases List.mem_append.mp member with listed | new
      · exact Or.inl listed
      · rw [List.mem_singleton.mp new]
        exact Or.inr rfl
    · exact Or.inl member

theorem subset_foldl_addGiveaway
    (stack : List Technology) (more : List (String × Known)) :
    stack ⊆ more.foldl (addGiveaway dependencies markers) stack := by
  induction more generalizing stack with
  | nil =>
      exact List.Subset.refl stack
  | cons giveaway rest inductionHypothesis =>
      have first := @subset_addGiveaway dependencies markers stack giveaway
      exact List.Subset.trans first (inductionHypothesis _)

theorem mem_foldl_addGiveaway
    {stack : List Technology} {more : List (String × Known)} {technology : Technology}
    (member : technology ∈ more.foldl (addGiveaway dependencies markers) stack) :
    technology ∈ stack ∨ ∃ giveaway ∈ more, technology.name = giveaway.2.name := by
  induction more generalizing stack with
  | nil =>
      exact Or.inl member
  | cons giveaway rest inductionHypothesis =>
      rcases inductionHypothesis member with earlier | ⟨later, laterMember, named⟩
      · rcases mem_addGiveaway earlier with listed | named
        · exact Or.inl listed
        · exact Or.inr ⟨giveaway, List.mem_cons_self, named⟩
      · exact Or.inr ⟨later, List.mem_cons_of_mem giveaway laterMember, named⟩

end

variable {manifest : Option Manifest} {markers : List String}

/-- A technology is declared under the package that provides it, or given away
by a file in the root. -/
theorem name_of_mem_detect
    {technology : Technology} (member : technology ∈ detect manifest markers) :
    (∃ entry ∈ known, technology.name = entry.name ∧
        (entry.package : RawText) ∈ (Manifest.dependenciesOf manifest).map (·.1)) ∨
      ∃ giveaway ∈ giveaways, technology.name = giveaway.2.name := by
  rcases mem_foldl_addGiveaway member with listed | given
  · obtain ⟨entry, entryMember, version, found, rfl⟩ := mem_declared_iff.mp listed
    have key : (entry.package : RawText) ∈ (Manifest.dependenciesOf manifest).map (·.1) := by
      have known :
          ((Manifest.dependenciesOf manifest).lookup (entry.package : RawText)).isSome = true := by
        rw [found]
        rfl
      obtain ⟨field, fieldMember, same⟩ := List.lookup_isSome_iff.mp known
      exact List.mem_map.mpr ⟨field, fieldMember, (beq_iff_eq.mp same).symm⟩
    exact Or.inl ⟨entry, entryMember, rfl, key⟩
  · exact Or.inr given

/-- What is declared is among the technologies. -/
theorem exists_mem_detect
    {entry : Known} (entryMember : entry ∈ known)
    (key : (entry.package : RawText) ∈ (Manifest.dependenciesOf manifest).map (·.1)) :
    ∃ technology ∈ detect manifest markers, technology.name = entry.name := by
  obtain ⟨field, fieldMember, same⟩ := List.mem_map.mp key
  have known :
      ((Manifest.dependenciesOf manifest).lookup (entry.package : RawText)).isSome = true :=
    List.lookup_isSome_iff.mpr ⟨field, fieldMember, by simp [same]⟩
  obtain ⟨version, found⟩ := Option.isSome_iff_exists.mp known
  have listed := mem_declared_iff.mpr ⟨entry, entryMember, version, found, rfl⟩
  exact ⟨_, subset_foldl_addGiveaway _ giveaways listed, rfl⟩

end Stack

/-! ## Signals -/

namespace Workflow

/-- The framework that serves whole applications shows exactly if its package
is declared: no other technology has its name, and no file gives it away. -/
theorem hasNext_iff
    (table : Table) (manifest : Option Manifest) (markers : List String) :
    (Signals.ofProject (Stack.detect manifest markers) table).hasNext = true ↔
      ("next" : RawText) ∈ (Manifest.dependenciesOf manifest).map (·.1) := by
  have others : ∀ entry ∈ Stack.known,
      Text.lower entry.name = "next.js" ∨ Text.lower entry.name = "next" →
        entry.package = "next" := by
    decide +kernel
  have tools : ∀ giveaway ∈ Stack.giveaways,
      ¬(Text.lower giveaway.2.name = "next.js" ∨ Text.lower giveaway.2.name = "next") := by
    decide +kernel
  have shown :
      (Signals.ofProject (Stack.detect manifest markers) table).hasNext = true ↔
        ∃ technology ∈ Stack.detect manifest markers,
          Text.lower technology.name = "next.js" ∨ Text.lower technology.name = "next" := by
    simp only [Signals.ofProject, Bool.or_eq_true, List.any_eq_true, beq_iff_eq, and_or_left,
      exists_or]
  rw [shown]
  constructor
  · rintro ⟨technology, member, named⟩
    rcases Stack.name_of_mem_detect member with
      ⟨entry, entryMember, same, key⟩ | ⟨giveaway, giveawayMember, same⟩
    · rw [same] at named
      exact others entry entryMember named ▸ key
    · rw [same] at named
      exact absurd named (tools giveaway giveawayMember)
  · intro key
    have entryMember :
        (⟨"next", "Next.js", "Fullstack", "framework"⟩ : Stack.Known) ∈ Stack.known := by
      simp [Stack.known]
    obtain ⟨technology, member, named⟩ :=
      @Stack.exists_mem_detect manifest markers _ entryMember key
    refine ⟨technology, member, Or.inl ?_⟩
    rw [named]
    decide +kernel

end Workflow

/-! ## Agreement -/

/-- The architectures that a project of a type may turn out to have. -/
def ProjectType.architectures : ProjectType → List Architecture
  | .nextFullstack => [.next]
  | .mernStack => [.mern]
  | .expressMongo => [.mern, .expressMongo]
  | .expressBackend => [.mern, .expressMongo, .express]
  | .reactFrontend => [.mern, .express, .react]
  | .plain => [.mern, .expressMongo, .express, .react, .generic]

/-- What files show, technologies can only add to. -/
theorem Workflow.architecture_mem
    {signals : Workflow.Signals} {table : Table} {manifest : Option Manifest}
    (next : signals.hasNext = true ↔ ("next" : RawText) ∈ (Manifest.dependenciesOf manifest).map (·.1))
    (server : table.hasKind .server = true → signals.hasExpress = true)
    (component : table.hasKind .component = true → signals.hasReact = true)
    (model : table.hasKind .model = true → signals.hasMongoose = true) :
    signals.architecture ∈ (ProjectType.determine table manifest).architectures := by
  have declares :
      ((Manifest.dependenciesOf manifest).any fun entry => entry.1 == "next") =
        signals.hasNext := by
    rw [Bool.eq_iff_iff, next]
    simp
  unfold ProjectType.determine
  rw [declares]
  obtain ⟨hasExpress, hasReact, hasNext, hasMongoose, hasBuildTool⟩ := signals
  dsimp only at server component model ⊢
  generalize table.hasKind .server = hasServer at server ⊢
  generalize table.hasKind .component = hasComponent at component ⊢
  generalize table.hasKind .model = hasModel at model ⊢
  clear next declares
  revert hasExpress hasReact hasNext hasMongoose hasServer hasComponent hasModel
  decide +revert

/-- A type of projects and an architecture, both in words, that go together. -/
@[mk_iff agreement_iff]
structure Agreement (projectType architecture : String) : Prop where
  next : projectType = "Next.js Fullstack Application" ↔ architecture = "Next.js Fullstack"
  mern : projectType = "MERN Stack Application" → architecture = "MERN Stack"
  expressMongo :
    projectType = "Express + MongoDB Backend" →
      architecture ∈ ["MERN Stack", "Express + MongoDB Backend"]
  express :
    projectType = "Express.js Backend" →
      architecture ∈ ["MERN Stack", "Express + MongoDB Backend", "Express.js API"]
  react :
    projectType = "React Frontend Application" →
      architecture ∈ ["MERN Stack", "Express.js API", "React Frontend"]

theorem Agreement.of_mem
    {projectType : ProjectType} {architecture : Architecture}
    (member : architecture ∈ projectType.architectures) :
    Agreement projectType.name architecture.name := by
  simp only [agreement_iff]
  revert architecture
  cases projectType with
  | nextFullstack => decide
  | mernStack => decide
  | expressMongo => decide
  | reactFrontend => decide
  | expressBackend => decide
  | plain => decide

theorem Workflow.agreement_classify
    (table : Table) (manifest : Option Manifest) (markers : List String) :
    Agreement (ProjectType.determine table manifest).name
      (Workflow.classify (Stack.detect manifest markers) table).architecture.name := by
  apply Agreement.of_mem
  rw [(classify_spec _ table).1]
  apply architecture_mem (hasNext_iff table manifest markers)
  · intro server
    simp [Signals.ofProject, server]
  · intro component
    simp [Signals.ofProject, component]
  · intro model
    simp [Signals.ofProject, model]

/-- Whatever the files, the manifest and the names of the files in the root,
the type that is told from them and the architecture go together; and so they
do in every report that is composed. -/
theorem project_type_agrees_with_architecture :
    (∀ (table : Table) (manifest : Option Manifest) (markers : List String),
      Agreement (ProjectType.determine table manifest).name
        (Workflow.classify (Stack.detect manifest markers) table).architecture.name) ∧
    ∀ (setting : Analysis.Setting) (path : String) (report : Report),
      (Analysis.compose setting path).outcome.1 = .ok report →
        Agreement report.projectType report.workflow.architecture.name := by
  refine ⟨Workflow.agreement_classify, ?_⟩
  intro setting path report composed
  rw [(Analysis.compose_gives setting path).outcome] at composed
  obtain ⟨resolved, survey, graph, patterns, _, _, _, _, rfl⟩ :=
    Analysis.composeResult_eq_ok composed
  exact Workflow.agreement_classify survey.table survey.manifest survey.markers

end ModuleAtlas
