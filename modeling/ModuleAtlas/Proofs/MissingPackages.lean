import ModuleAtlas.Project.Issue
import ModuleAtlas.Proofs.GroupedLists
import ModuleAtlas.Proofs.ResolvedPaths

/-!
# Packages that are missing

A project misses the packages that its files import and its manifest does not
declare.  Each is reported once, in the order in which the packages are first
imported.  An import that could lead to a file of the project is none of a
package, and once all that is reported is declared nothing is missing any more.
-/

namespace ModuleAtlas

/-! ## Names of packages -/

namespace Path

/-- The first piece decides how a path begins. -/
theorem beginsWith_of_pieces
    {path first mark : String} {rest : List String} {character : Char}
    (split : pieces path = first :: rest) (marks : mark.toList = [character])
    (other : character ≠ '/') :
    Text.beginsWith path mark = Text.beginsWith first mark := by
  have whole := ofComponents_pieces path
  rw [split] at whole
  by_cases last : rest = []
  · rw [← whole, last, ofComponents_singleton]
  · rw [← whole, ofComponents_cons first last, Text.beginsWith, Text.beginsWith, marks,
      String.toList_append, String.toList_append]
    cases first.toList with
    | nil => simp [List.isPrefixOf, other]
    | cons initial others => simp [List.isPrefixOf]

theorem beginsWith_slash_of_pieces
    {path first : String} {rest : List String} (split : pieces path = first :: rest)
    (nonempty : first ≠ "") : Text.beginsWith path "/" = false := by
  rw [← Bool.not_eq_true]
  intro begins
  obtain ⟨behind, other⟩ := @pieces_of_beginsWith path "" begins
  rw [split, pieces_empty] at other
  exact nonempty (List.cons.inj other).1

end Path

namespace Package

/-- A name that packages have: one piece, or two of which the first begins with an
at sign. -/
inductive IsPackageName : String → Prop
  | plain {name : String} :
      Path.pieces name = [name] → name ≠ "" → Text.beginsWith name "." = false →
        Text.beginsWith name "@" = false → IsPackageName name
  | inScope {name scope rest : String} :
      Path.pieces name = [scope, rest] → Text.beginsWith scope "@" = true → IsPackageName name

theorem not_beginsWith_point {scope : String} (begins : Text.beginsWith scope "@" = true) :
    Text.beginsWith scope "." = false ∧ scope ≠ "" := by
  obtain ⟨rest, shape⟩ := Text.beginsWith_iff.mp begins
  refine ⟨?_, ?_⟩
  · rw [Text.beginsWith, shape]
    rfl
  · rintro rfl
    cases shape

/-- No name of a package is relative. -/
theorem IsPackageName.not_isRelative
    {name : String} (named : IsPackageName name) : Resolution.isRelative name = false := by
  cases named with
  | plain single nonempty notPoint notAt => exact notPoint
  | inScope split begins =>
      rw [Resolution.isRelative, Path.beginsWith_of_pieces split rfl (by decide)]
      exact (not_beginsWith_point begins).1

/-- An import means the package whose name makes its first pieces. -/
theorem nameOf?_eq_some_iff {source name : String} :
    nameOf? source = some name ↔
      IsPackageName name ∧ Path.pieces name <+: Path.pieces source := by
  obtain ⟨first, rest, split⟩ := List.exists_cons_of_ne_nil (Path.pieces_ne_nil source)
  have firstFree : '/' ∉ first.toList :=
    Path.slashFree_of_mem_pieces (by rw [split]; exact List.mem_cons_self)
  have single := Path.pieces_of_slashFree firstFree
  have point : Text.beginsWith source "." = Text.beginsWith first "." :=
    Path.beginsWith_of_pieces split rfl (by decide)
  have atSign : Text.beginsWith source "@" = Text.beginsWith first "@" :=
    Path.beginsWith_of_pieces split rfl (by decide)
  unfold nameOf?
  dsimp only
  rw [split, atSign, point]
  constructor
  · intro found
    split at found
    · cases found
    · next notPath =>
        simp only [Bool.or_eq_true, not_or, Bool.not_eq_true] at notPath
        split at found
        · next begins =>
            cases rest with
            | nil =>
                cases found
            | cons second others =>
                cases found
                have secondFree : '/' ∉ second.toList :=
                  Path.slashFree_of_mem_pieces (by rw [split]; simp)
                have pair : Path.pieces (first ++ "/" ++ second) = [first, second] := by
                  rw [Path.pieces_append_slash, single, Path.pieces_of_slashFree secondFree]
                  rfl
                exact ⟨.inScope pair begins, by rw [pair]; exact ⟨others, rfl⟩⟩
        · next plain =>
            dsimp only at found
            split at found
            · cases found
            · next nonempty =>
                cases found
                rw [beq_iff_eq] at nonempty
                rw [Bool.not_eq_true] at plain
                exact ⟨.plain single nonempty notPath.1 plain, by rw [single]; exact ⟨rest, rfl⟩⟩
  · rintro ⟨named, behind, whole⟩
    cases named with
    | plain own nonempty notPoint notAt =>
        rw [own] at whole
        obtain ⟨rfl, rfl⟩ := List.cons.inj whole
        have notSlash := Path.beginsWith_slash_of_pieces split nonempty
        simp [notPoint, notAt, notSlash, nonempty]
    | @inScope scope second own begins =>
        rw [own] at whole
        obtain ⟨rfl, rfl⟩ := List.cons.inj whole
        obtain ⟨notPoint, nonempty⟩ := not_beginsWith_point begins
        have notSlash := Path.beginsWith_slash_of_pieces split nonempty
        have named : scope ++ "/" ++ second = name := by
          rw [← Path.ofComponents_pieces name, own, Path.ofComponents_cons _ (by simp),
            Path.ofComponents_singleton]
        simp [notPoint, notSlash, begins, named]

/-- An import that is relative means no package. -/
theorem nameOf?_of_isRelative {source : String} (relative : Resolution.isRelative source = true) :
    nameOf? source = none := by
  rw [Resolution.isRelative] at relative
  rw [nameOf?, relative, Bool.true_or, if_pos rfl]

/-- The package that has to be declared for an import, if there is one. -/
def required? (source : String) : Option String :=
  if isPlatform source then none else nameOf? source

theorem required?_eq_some_iff {source name : String} :
    required? source = some name ↔ isPlatform source = false ∧ nameOf? source = some name := by
  unfold required?
  cases isPlatform source with
  | true => simp
  | false => simp

end Package

/-! ## Reports -/

/-- The sources of all imports of a table, by file and in each file in their order. -/
def Table.sources (table : Table) : List String :=
  table.analyses.flatMap fun entry => entry.imports.map (·.source)

namespace Manifest

/-- A package is declared for use or for development. -/
def Declares (manifest : Option Manifest) (name : String) : Prop :=
  ∃ known, manifest = some known ∧
    ((name : RawText) ∈ known.dependencies.map (·.1) ∨
      (name : RawText) ∈ known.devDependencies.map (·.1))

/-- The manifest with packages added to its dependencies, each in some version. -/
def depending (manifest : Option Manifest) (names : List String) (version : String → RawText) :
    Manifest :=
  let known := manifest.getD {}
  { known with
    dependencies :=
      names.foldl (fun fields name => Json.putField fields (.proper name) (version name))
        known.dependencies }

theorem mem_dependenciesOf_iff {manifest : Option Manifest} {name : String} :
    (name : RawText) ∈ (dependenciesOf manifest).map (·.1) ↔ Declares manifest name := by
  unfold dependenciesOf Declares
  cases manifest with
  | none => simp
  | some known =>
      dsimp only
      rw [allDependencies, Json.mem_keys_foldl_putField]
      simp only [Option.some.injEq, exists_eq_left']

theorem declares_depending_iff
    {manifest : Option Manifest} {names : List String} {version : String → RawText}
    {name : String} :
    Declares (some (depending manifest names version)) name ↔
      Declares manifest name ∨ name ∈ names := by
  have added :=
    @Json.mem_keys_foldl_putField _ _ _ _ (manifest.getD {}).dependencies names RawText.proper
      version name
  rw [List.mem_map_of_injective fun _ _ => RawText.proper.inj] at added
  unfold Declares depending
  simp only [Option.some.injEq, exists_eq_left']
  constructor
  · rintro (inUse | inDevelopment)
    · rcases added.mp inUse with known | new
      · cases manifest with
        | none => cases known
        | some own => exact Or.inl ⟨own, rfl, Or.inl known⟩
      · exact Or.inr new
    · cases manifest with
      | none => cases inDevelopment
      | some own => exact Or.inl ⟨own, rfl, Or.inr inDevelopment⟩
  · rintro (⟨own, rfl, known | known⟩ | new)
    · exact Or.inl (added.mpr (Or.inl known))
    · exact Or.inr known
    · exact Or.inl (added.mpr (Or.inr new))

end Manifest

namespace Issue

variable {table : Table} {manifest : Option Manifest}

/-- The names are those of the packages that a project misses. -/
structure ListsMissing (table : Table) (manifest : Option Manifest) (names : List String) :
    Prop where
  reported : missingDependencies table manifest = names.map missingDependency
  mem_iff :
    ∀ name, name ∈ names ↔
      (∃ source ∈ table.sources,
        Package.isPlatform source = false ∧ Package.nameOf? source = some name) ∧
      ¬Manifest.Declares manifest name
  once : names.Nodup
  /-- The packages come in the order of the first imports of each of them. -/
  ordered :
    names.Pairwise fun left right =>
      table.sources.findIdx (fun source => Package.required? source == some left) <
        table.sources.findIdx fun source => Package.required? source == some right

theorem importedPackages_eq (table : Table) :
    importedPackages table = (table.sources.filterMap Package.required?).eraseDups := by
  have fused :
      ((table.sources.filter fun source => !Package.isPlatform source).filterMap
          Package.nameOf?) =
        table.sources.filterMap Package.required? := by
    rw [List.filterMap_filter]
    congr 1
    funext source
    unfold Package.required?
    cases Package.isPlatform source <;> rfl
  exact congrArg List.eraseDups fused

theorem mem_importedPackages_iff {name : String} :
    name ∈ importedPackages table ↔
      ∃ source ∈ table.sources,
        Package.isPlatform source = false ∧ Package.nameOf? source = some name := by
  rw [importedPackages_eq, List.mem_eraseDups, List.mem_filterMap]
  simp only [Package.required?_eq_some_iff]

/-- The packages that a project misses. -/
def missingNames (table : Table) (manifest : Option Manifest) : List String :=
  (importedPackages table).filter fun name =>
    !((Manifest.dependenciesOf manifest).map (·.1)).contains (name : RawText)

theorem mem_missingNames_iff {name : String} :
    name ∈ missingNames table manifest ↔
      name ∈ importedPackages table ∧ ¬Manifest.Declares manifest name := by
  rw [missingNames, List.mem_filter, Bool.not_eq_true', ← Bool.not_eq_true,
    List.contains_iff_mem, Manifest.mem_dependenciesOf_iff]

theorem listsMissing_missingNames (table : Table) (manifest : Option Manifest) :
    ListsMissing table manifest (missingNames table manifest) where
  reported := rfl
  mem_iff name := by rw [mem_missingNames_iff, mem_importedPackages_iff]
  once := by
    rw [missingNames, importedPackages_eq]
    exact (nodup_eraseDups _).filter _
  ordered := by
    rw [missingNames, importedPackages_eq]
    exact (pairwise_findIdx_eraseDups Package.required? table.sources).filter _

/-- Nothing is missing once all that is missing is declared. -/
theorem missingDependencies_depending
    (table : Table) (manifest : Option Manifest) (version : String → RawText) :
    missingDependencies table
        (some (Manifest.depending manifest (missingNames table manifest) version)) = [] := by
  rw [(listsMissing_missingNames table _).reported, List.map_eq_nil_iff,
    List.eq_nil_iff_forall_not_mem]
  intro name member
  obtain ⟨imported, undeclared⟩ := mem_missingNames_iff.mp member
  rw [Manifest.declares_depending_iff, not_or] at undeclared
  exact undeclared.2 (mem_missingNames_iff.mpr ⟨imported, undeclared.1⟩)

end Issue

/-- The packages that are reported are those that a project misses, each once and in
the order of their first imports.  No import that could lead to a file means a
package, nor is it the name of one that is reported; and nothing is reported once
all these packages are added to the dependencies. -/
theorem missing_packages_exact (table : Table) (manifest : Option Manifest) :
    ∃ names, Issue.ListsMissing table manifest names ∧
      (∀ (ε : Type) (isFile : String → Except ε Bool) (source importer path : String),
        Resolution.resolve isFile source importer = .ok (some path) →
          Package.nameOf? source = none ∧ source ∉ names) ∧
      ∀ version : String → RawText,
        Issue.missingDependencies table (some (Manifest.depending manifest names version)) = [] := by
  refine ⟨Issue.missingNames table manifest, Issue.listsMissing_missingNames table manifest, ?_,
    Issue.missingDependencies_depending table manifest⟩
  intro ε isFile source importer path found
  have relative := (Resolution.resolve_some found).1
  refine ⟨Package.nameOf?_of_isRelative relative, ?_⟩
  intro member
  obtain ⟨imported, _⟩ := Issue.mem_missingNames_iff.mp member
  obtain ⟨other, _, _, named⟩ := Issue.mem_importedPackages_iff.mp imported
  have notRelative := (Package.nameOf?_eq_some_iff.mp named).1.not_isRelative
  exact absurd relative (by simp [notRelative])

end ModuleAtlas
