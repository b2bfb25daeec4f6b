import ModuleAtlas.Proofs.PathWalks
import ModuleAtlas.Proofs.SpelledImports
import ModuleAtlas.Proofs.SurveyOrder

/-!
# Sources of a survey as targets of imports

The survey takes files by their extensions in small letters; the resolution of
imports takes extensions as they are written.  The two agree on a file exactly
if its extension is written in small letters: only then does an import that
spells the file out lead to it.
-/

namespace ModuleAtlas.Survey

open Disk (Item)
open Disk.Item (Reaches)
open Resolution (SpellsOut IsPlain isFileUnder)

theorem find_of_rootOf
    {surroundings : Surroundings} {path root : String}
    (rooted : rootOf surroundings path = .ok root) :
    '\x00' ∉ root.toList ∧ ∃ tree, Disk.find surroundings.disk root = .ok tree := by
  obtain ⟨nullFree, tree, isTree, _⟩ := Disk.holds_eq_true_iff.mp (isDirectory_of_rootOf rooted)
  exact ⟨nullFree, tree, isTree⟩

section

variable {surroundings : Surroundings} {wishes : Wishes} {examiner : Examiner}
  {path : String} {result : Survey}

/-- Every path of the table is that of a source below the root. -/
theorem isSourcePath_of_mem_paths
    (kept : surroundings.disk.WellKept)
    (surveyed : (survey surroundings wishes examiner path).outcome.1 = .ok result) :
    '\x00' ∉ result.root.toList ∧
      ∃ tree rules, Disk.find surroundings.disk result.root = .ok tree ∧
        ∀ file ∈ result.table.paths,
          IsSourcePath surroundings.disk result.root rules tree file := by
  rw [(survey_gives surroundings wishes examiner path).outcome] at surveyed
  obtain ⟨root, settings, manifest, rooted, _, rfl⟩ := ofDirectory_of_surveyResult surveyed
  obtain ⟨nullFree, tree, found⟩ := find_of_rootOf rooted
  refine ⟨nullFree, tree, rulesOf surroundings.disk root wishes settings, found, ?_⟩
  intro file member
  have wellNamed := (Disk.wellKept_of_find kept found).wellNamed
  have listed := mem_paths_tableOf.mp member
  rw [List.map_map] at listed
  exact (mem_sourcePaths_search_iff found wellNamed).mp listed

theorem isPlain_of_isSourcePath
    {disk tree : Item} {root file : String} {rules : List Ignore.Rule}
    (kept : tree.WellKept) (source : IsSourcePath disk root rules tree file)
    (bare : '\\' ∉ file.toList) :
    IsPlain file := by
  obtain ⟨above, name, item, rfl, reaches, _⟩ := source
  exact IsPlain.of_names (by simp)
    (fun other member => (kept.isEntryName reaches other member).isStep) bare

theorem extension_of_isSourcePath
    {disk tree : Item} {root file : String} {rules : List Ignore.Rule}
    (kept : tree.WellKept) (source : IsSourcePath disk root rules tree file) :
    Text.lower (Path.extension file) ∈ Script.extensions := by
  obtain ⟨above, name, item, rfl, reaches, _, supported, _⟩ := source
  rwa [Path.extension_ofComponents fun other member =>
    (kept.isEntryName reaches other member).isStep]

theorem isFileUnder_eq (disk : Item) (project path : String) :
    isFileUnder disk project path = Disk.isFile disk (Path.join project path) := by
  unfold isFileUnder
  by_cases absolute : Path.isAbsolute path = true
  · simp [Path.join, absolute]
  · simp [absolute]

/-- An import that spells a file of the table out has its edge exactly if the
extension of the file is in small letters and the path leads to a file.  Every
entry that is a file itself and can be looked up does lead to one, unless its
path is too long, and the graph is there unless a path that an import may mean
cannot be looked at. -/
theorem spelled_import_edge_iff
    (kept : surroundings.disk.WellKept)
    (surveyed : (survey surroundings wishes examiner path).outcome.1 = .ok result)
    {importer file : String} {entry : Entry} {reference : Reference}
    (importerListed : (importer, entry) ∈ result.table.entries)
    (imported : reference ∈ entry.imports)
    (fileListed : file ∈ result.table.paths)
    (importerBare : '\\' ∉ importer.toList) (fileBare : '\\' ∉ file.toList)
    (spelled : SpellsOut reference.source importer file) :
    let isFile := isFileUnder surroundings.disk result.root
    let edge : Graph.Edge := ⟨nodeId importer, nodeId file, reference.source, "import"⟩
    (∀ tree readable octets,
        Disk.find surroundings.disk result.root = .ok tree →
        tree.at? (Path.pieces file) = some (.file readable octets) →
        (Path.join result.root file).utf8ByteSize ≤ Disk.longestPath →
        isFile file = .ok true) ∧
      match Graph.build (Resolution.resolve isFile) result.table with
      | .error trouble =>
          ∃ place fault, isFile place = .error trouble ∧
            Disk.IsBarred surroundings.disk (Path.join result.root place) fault ∧
            trouble = ⟨fault, Path.join result.root place⟩
      | .ok graph =>
          (Graph.importEdge? (Resolution.resolve isFile) graph.ids importer reference =
              some edge ↔
            Text.lower (Path.extension file) = Path.extension file ∧
              isFile file = .ok true) ∧
            (Text.lower (Path.extension file) = Path.extension file →
              isFile file = .ok true → edge ∈ graph.edges) := by
  intro isFile edge
  obtain ⟨nullFree, tree, rules, found, sources⟩ := isSourcePath_of_mem_paths kept surveyed
  have treeKept : tree.WellKept := Disk.wellKept_of_find kept found
  have importerPath : importer ∈ result.table.paths :=
    List.mem_map.mpr ⟨(importer, entry), importerListed, rfl⟩
  have importerPlain :=
    isPlain_of_isSourcePath treeKept (sources importer importerPath) importerBare
  have filePlain := isPlain_of_isSourcePath treeKept (sources file fileListed) fileBare
  have supported := extension_of_isSourcePath treeKept (sources file fileListed)
  refine ⟨?_, ?_⟩
  · intro other readable octets isTree leads short
    rw [found] at isTree
    cases isTree
    have joined := Disk.isFile_join kept found nullFree (Path.pieces_ne_nil file) leads
    rw [filePlain.whole] at joined
    exact (isFileUnder_eq surroundings.disk result.root file).trans (joined short)
  · have spec := Graph.build_spec (Resolution.resolve isFile) result.table
    cases built : Graph.build (Resolution.resolve isFile) result.table with
    | error trouble =>
        rw [built] at spec
        obtain ⟨_, _, _, _, failed⟩ := spec
        obtain ⟨place, troubled⟩ := Resolution.resolve_error failed
        have lookedUp := (isFileUnder_eq surroundings.disk result.root place).symm.trans troubled
        obtain ⟨fault, barred, same⟩ := Disk.holds_eq_error_iff.mp lookedUp
        exact ⟨place, fault, troubled, barred, same⟩
    | ok graph =>
        rw [built] at spec
        have known : nodeId file ∈ graph.ids := by
          obtain ⟨listed, listedMember, rfl⟩ := List.mem_map.mp fileListed
          rw [Graph.ids, spec.1]
          exact Graph.mem_ids_nodesOf.mpr ⟨listed, listedMember, rfl⟩
        have leads :=
          @Resolution.importEdge?_spelled_iff _ _ _ isFile _ _ importerPlain filePlain spelled known
        rw [Resolution.mem_extensions_iff supported] at leads
        refine ⟨leads, ?_⟩
        intro small holds
        rw [spec.2.1, List.mem_flatMap]
        refine ⟨(importer, entry), importerListed, List.mem_filterMap.mpr ⟨reference, imported, ?_⟩⟩
        rw [← spec.1]
        exact leads.mpr ⟨small, holds⟩

end

/-! ## A script with an extension in capitals -/

/-- A project with two scripts that import each other, one of them with an
extension in capitals. -/
def capitalProject : Item :=
  .directory true true
    [("a.js", .file true "import './b.JS';".toUTF8.toList),
      ("b.JS", .file true "import './a.js';".toUTF8.toList)]

/-- Surroundings with the project on the disk. -/
def capitalSurroundings : Surroundings :=
  ⟨.directory true true [("project", capitalProject)], "/", "/", []⟩

/-- The source for a script of the project. -/
def capitalSource (name : String) : Source :=
  ⟨name, "/project/" ++ name, ".js"⟩

theorem wellKept_capitalSurroundings : capitalSurroundings.disk.WellKept := by
  simp only [capitalSurroundings, capitalProject, Item.wellKept_directory_iff,
    List.forall_mem_cons, List.not_mem_nil, false_imp_iff, implies_true, and_true,
    Item.wellKept_file]
  decide

theorem mem_sourcesUnder_capitalSurroundings :
    ∀ name ∈ ["a.js", "b.JS"],
      capitalSource name ∈ sourcesUnder capitalSurroundings.disk "/project" [] := by
  have found : Disk.find capitalSurroundings.disk "/project" = .ok capitalProject := rfl
  intro name member
  refine List.mem_filterMap.mpr ⟨Finding.source (capitalSource name), ?_, rfl⟩
  rw [search_of_find found, source_mem_findings_iff]
  rcases List.mem_pair.mp member with rfl | rfl
  · have reaches : Reaches capitalProject ["a.js"] (.file true "import './b.JS';".toUTF8.toList) :=
      Reaches.into List.mem_cons_self (fun _ => rfl) (Reaches.here _)
    exact ⟨[], "a.js", ⟨_, reaches, rfl⟩, by decide, trivial⟩
  · have reaches : Reaches capitalProject ["b.JS"] (.file true "import './a.js';".toUTF8.toList) :=
      Reaches.into (List.mem_cons_of_mem _ List.mem_cons_self) (fun _ => rfl) (Reaches.here _)
    exact ⟨[], "b.JS", ⟨_, reaches, rfl⟩, by decide, trivial⟩

theorem imports_capitalSurroundings :
    ⟨"./b.JS", []⟩ ∈
        (examine capitalSurroundings.disk usualExaminer (capitalSource "a.js")).1.imports ∧
      ⟨"./a.js", []⟩ ∈
        (examine capitalSurroundings.disk usualExaminer (capitalSource "b.JS")).1.imports := by
  decide +kernel

theorem spelled_import_edge_iff_capitals :
    ∃ result, (survey capitalSurroundings {} usualExaminer "/project").outcome.1 = .ok result ∧
      "a.js" ∈ result.table.paths ∧ "b.JS" ∈ result.table.paths ∧
      isFileUnder capitalSurroundings.disk result.root "b.JS" = .ok true ∧
      match Graph.build
          (Resolution.resolve (isFileUnder capitalSurroundings.disk result.root))
          result.table with
      | .error trouble =>
          ∃ place fault, isFileUnder capitalSurroundings.disk result.root place = .error trouble ∧
            Disk.IsBarred capitalSurroundings.disk (Path.join result.root place) fault ∧
            trouble = ⟨fault, Path.join result.root place⟩
      | .ok graph =>
          Graph.importEdge?
              (Resolution.resolve (isFileUnder capitalSurroundings.disk result.root))
              graph.ids "a.js" ⟨"./b.JS", []⟩ ≠
            some ⟨nodeId "a.js", nodeId "b.JS", "./b.JS", "import"⟩ ∧
          ⟨nodeId "b.JS", nodeId "a.js", "./a.js", "import"⟩ ∈ graph.edges := by
  have kept := wellKept_capitalSurroundings
  have succeeds :
      (surveyResult capitalSurroundings {} usualExaminer "/project").toBool = true := by
    decide +kernel
  have root : rootOf capitalSurroundings "/project" = .ok "/project" := by
    decide +kernel
  obtain ⟨result, surveyed, rooted⟩ := exists_survey_at_root succeeds root
  obtain ⟨settings, configured, entries⟩ := mem_entries_of_survey kept surveyed
  rw [rooted] at configured entries
  have computed :
      (settingsResult capitalSurroundings.disk "/project").map
        (rulesOf capitalSurroundings.disk "/project" {}) = .ok [] := by
    decide +kernel
  rw [rulesOf_of_computed computed configured] at entries
  have first := entries _ (mem_sourcesUnder_capitalSurroundings "a.js" (by simp))
  have second := entries _ (mem_sourcesUnder_capitalSurroundings "b.JS" (by simp))
  have firstListed : "a.js" ∈ result.table.paths := List.mem_map.mpr ⟨_, first, rfl⟩
  have secondListed : "b.JS" ∈ result.table.paths := List.mem_map.mpr ⟨_, second, rfl⟩
  have capitalSpelled : SpellsOut "./b.JS" "a.js" "b.JS" :=
    ⟨[], [], [], "a.js", "b.JS", by decide, by decide, by decide⟩
  have smallSpelled : SpellsOut "./a.js" "b.JS" "a.js" :=
    ⟨[], [], [], "b.JS", "a.js", by decide, by decide, by decide⟩
  have capital :=
    spelled_import_edge_iff kept surveyed first imports_capitalSurroundings.1 secondListed
      (by decide) (by decide) capitalSpelled
  have small :=
    spelled_import_edge_iff kept surveyed second imports_capitalSurroundings.2 firstListed
      (by decide) (by decide) smallSpelled
  refine ⟨result, surveyed, firstListed, secondListed, by rw [rooted]; rfl, ?_⟩
  have capitalAgrees := capital.2
  have smallAgrees := small.2
  dsimp only at capitalAgrees smallAgrees
  cases built :
      Graph.build (Resolution.resolve (isFileUnder capitalSurroundings.disk result.root))
        result.table with
  | error trouble =>
      rw [built] at capitalAgrees
      exact capitalAgrees
  | ok graph =>
      rw [built] at capitalAgrees smallAgrees
      refine ⟨?_, ?_⟩
      · intro leads
        exact absurd (capitalAgrees.1.mp leads).1 (by decide +kernel)
      · exact smallAgrees.2 (by decide +kernel) (by rw [rooted]; rfl)

end ModuleAtlas.Survey
