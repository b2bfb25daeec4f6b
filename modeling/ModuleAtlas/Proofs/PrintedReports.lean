import ModuleAtlas.CommandLine.Program
import ModuleAtlas.Proofs.AnalysisOutcome
import ModuleAtlas.Proofs.JsonRoundTrip
import ModuleAtlas.Proofs.ProperTexts
import ModuleAtlas.Proofs.SortedIssues

/-!
# Printed reports

The document of a report that was composed can be read back from what the
command line prints, whatever texts stand in it.
-/

namespace ModuleAtlas

open Journal
open Json (Readable readable_ofList readable_strings)

variable {levels : Nat}

/-! ## Parts of a report -/

/-- An object of what stands under names that each come once. -/
theorem readable_named
    {α : Type} {entries : List (String × α)} (nodup : (entries.map (·.1)).Nodup)
    {encode : α → Json} (encoded : ∀ value, Readable levels (encode value)) :
    Readable (levels + 1)
      (.object (entries.map fun entry => (.proper entry.1, encode entry.2))) := by
  apply Readable.object
  · have distinct := nodup.map fun _ _ => RawText.proper.inj
    rw [List.map_map] at distinct ⊢
    exact distinct
  · intro field member
    obtain ⟨entry, _, rfl⟩ := List.mem_map.mp member
    exact encoded entry.2

theorem Technology.readable (technology : Technology) : Readable (levels + 1) technology.toJson :=
  .record (by simp) ⟨.string _, .string _, .string _, .string _⟩

theorem Command.readable (command : Command) : Readable (levels + 1) command.toJson :=
  .record (by simp) ⟨.string _, .string _⟩

theorem SetupStep.readable (step : SetupStep) : Readable (levels + 1) step.toJson :=
  .record (by simp) ⟨.int _, .string _, .string _, .string _⟩

theorem Deployment.readable (deployment : Deployment) :
    Readable (levels + 2) deployment.toJson :=
  .record (by simp) ⟨.string _, .string _, readable_strings levels _⟩

theorem Entry.readable_digest (entry : Entry) : Readable (levels + 1) entry.digest :=
  .record (by simp) ⟨.string _, .string _, .int _, .int _, .int _, .int _, .int _⟩

theorem Issue.readable (issue : Issue) : Readable (levels + 1) issue.toJson :=
  .record (by simp) ⟨.string _, .string _, .string _, .string _, .string _⟩

namespace Graph

theorem Node.readable (node : Node) : Readable (levels + 1) node.toJson :=
  .record (by simp) ⟨.string _, .string _, .string _, .string _, .int _, .int _⟩

theorem Edge.readable (edge : Edge) : Readable (levels + 1) edge.toJson :=
  .record (by simp) ⟨.string _, .string _, .string _, .string _⟩

theorem Stats.readable (stats : Stats) : Readable (levels + 1) stats.toJson :=
  .record (by simp) ⟨.int _, .int _, .int _⟩

theorem EntryPoint.readable (point : EntryPoint) : Readable (levels + 1) point.toJson :=
  .record (by simp) ⟨.string _, .string _, .int _⟩

theorem Hub.readable (hub : Hub) : Readable (levels + 1) hub.toJson :=
  .record (by simp) ⟨.string _, .string _, .int _⟩

theorem Cluster.readable (cluster : Cluster) : Readable (levels + 2) cluster.toJson :=
  .record (by simp) ⟨.string _, .int _, readable_strings levels _⟩

theorem Cycle.readable (cycle : Cycle) : Readable (levels + 2) cycle.toJson :=
  .record (by simp) ⟨readable_strings levels _, .int _⟩

theorem Patterns.readable (patterns : Patterns) : Readable (levels + 4) patterns.toJson :=
  .record (by simp)
    ⟨readable_ofList EntryPoint.readable _, readable_ofList Hub.readable _,
      readable_ofList Cluster.readable _, readable_ofList Cycle.readable _⟩

end Graph

theorem SortedIssues.readable (issues : SortedIssues)
    (nodup : (issues.byKind.map (·.1)).Nodup) :
    Readable (levels + 4) issues.toJson := by
  have byKind := readable_named nodup fun group => readable_ofList (@Issue.readable levels) group
  exact .record (by simp)
    ⟨readable_ofList Issue.readable _, readable_ofList Issue.readable _,
      readable_ofList Issue.readable _, readable_ofList Issue.readable _, byKind⟩

theorem Workflow.readable (workflow : Workflow) (nodup : (workflow.flags.map (·.1)).Nodup) :
    Readable (levels + 4) workflow.toJson := by
  have flags := readable_named nodup fun flag => @Readable.bool (levels + 2) flag
  exact .record (by simp)
    ⟨.string _, .string _, readable_strings _ _, .string _, readable_strings _ _,
      readable_ofList Deployment.readable _, readable_ofList SetupStep.readable _, flags⟩

theorem Report.readable_breakdown
    {files : List (String × Entry)} (nodup : (files.map (·.1)).Nodup) :
    Readable (levels + 2) (Report.breakdown files) :=
  readable_named nodup Entry.readable_digest

/-! ## Confidence -/

namespace Confidence

/-- The confidence in a report without critical problems. -/
def uncriticised : List Binary64 := [80, 85, 90, 95, 100].map hundredths

theorem of_mem_uncriticised (files technologies : Int) :
    Confidence.of files technologies 0 ∈ uncriticised := by
  unfold Confidence.of
  generalize decide (3 < technologies) = several
  generalize decide (0 < technologies) = some
  generalize decide (50 < files) = many
  generalize decide (10 < files) = more
  revert several some many more
  decide +kernel

theorem readable_of_mem_uncriticised
    {value : Binary64} (member : value ∈ uncriticised) : Readable levels (.float value) := by
  simp only [uncriticised, List.map_cons, List.map_nil, List.mem_cons, List.not_mem_nil,
    or_false] at member
  rcases member with rfl | rfl | rfl | rfl | rfl
  · exact .float ((Json.hasPlaces_iff _ '0' ['8']).mpr (by decide +kernel))
  · exact .float ((Json.hasPlaces_iff _ '0' ['8', '5']).mpr (by decide +kernel))
  · exact .float ((Json.hasPlaces_iff _ '0' ['9']).mpr (by decide +kernel))
  · exact .float ((Json.hasPlaces_iff _ '0' ['9', '5']).mpr (by decide +kernel))
  · exact .float ((Json.hasPlaces_iff _ '1' ['0']).mpr (by decide +kernel))

end Confidence

/-! ## Composed reports -/

namespace Survey

theorem nodup_paths_tableOf (files : List (String × Entry)) : (tableOf files).paths.Nodup := by
  have empty : (([] : List (String × Entry)).map (·.1)).Nodup := List.nodup_nil
  exact Json.nodup_keys_foldl_putField empty
    (files.mergeSort fun left right => !(right.1 < left.1)) (fun file => file.1)
    (fun file => file.2)

/-- However the sources of a project are analysed, its table has one entry for each path. -/
theorem nodup_paths_of_surveyResult
    {surroundings : Surroundings} {wishes : Wishes} {examiner : Examiner} {path : String}
    {survey : Survey} (surveyed : surveyResult surroundings wishes examiner path = .ok survey) :
    survey.table.paths.Nodup := by
  obtain ⟨root, settings, manifest, _, _, rfl⟩ := ofDirectory_of_surveyResult surveyed
  exact nodup_paths_tableOf _

end Survey

namespace Report

/-- The document of a report that tells each path once. -/
theorem readable_reportOf
    (clock path : String) {survey : Survey} (nodup : survey.table.paths.Nodup) (graph : Graph)
    (patterns : Graph.Patterns) :
    Readable (levels + 6) (Analysis.reportOf clock path survey graph patterns
      (Issue.detect survey.table survey.manifest patterns survey.unreadable)).toJson := by
  have issues :
      Readable (levels + 5) (SortedIssues.ofList
        (Issue.detect survey.table survey.manifest patterns survey.unreadable)).toJson := by
    apply SortedIssues.readable
    rw [SortedIssues.byKind_ofList]
    exact nodup_keys_groupsBy _ _
  have workflow (steps : List SetupStep) :
      Readable (levels + 5)
        ({ Workflow.classify (Stack.detect survey.manifest survey.markers) survey.table with
            setupSteps := steps } : Workflow).toJson := by
    apply Workflow.readable
    show ((Workflow.classify _ survey.table).flags.map (·.1)).Nodup
    rw [(Workflow.classify_spec _ survey.table).2]
    simp [Workflow.Signals.flags]
  have connections :
      Readable (levels + 5) (.object (graph.fields ++ [(("patterns" : RawText), patterns.toJson)])) :=
    .record (by simp [Graph.fields])
      ⟨readable_ofList Graph.Node.readable _, readable_ofList Graph.Edge.readable _,
        Graph.Stats.readable _, Graph.Patterns.readable _⟩
  have uncritical :
      Confidence.of survey.table.size (Stack.detect survey.manifest survey.markers).length
          (SortedIssues.ofList
            (Issue.detect survey.table survey.manifest patterns survey.unreadable)).critical.length ∈
        Confidence.uncriticised := by
    rw [Issue.critical_ofList_detect]
    exact Confidence.of_mem_uncriticised _ _
  have metadata :
      Readable (levels + 5) (.object
        [("analyzed_at", .string clock), ("project_path", .string path),
          ("analysis_version", .string analysisVersion), ("confidence", .float _)]) :=
    .record (by simp)
      ⟨.string _, .string _, .string _, Confidence.readable_of_mem_uncriticised uncritical⟩
  exact .record (by simp)
    ⟨.string _, .string _, readable_ofList Technology.readable _,
      readable_breakdown nodup, workflow _, connections, issues,
      readable_ofList Command.readable _, readable_ofList SetupStep.readable _,
      readable_ofList Deployment.readable _, .null, metadata⟩

end Report

namespace Analysis

theorem nodup_paths_of_composeResult
    {setting : Setting} {path : String} {report : Report}
    (composed : composeResult setting path = .ok report) :
    report.table.paths.Nodup := by
  obtain ⟨resolved, survey, graph, patterns, _, surveyed, _, _, rfl⟩ :=
    composeResult_eq_ok composed
  exact Survey.nodup_paths_of_surveyResult surveyed

theorem readable_of_composeResult
    {setting : Setting} {path : String} {report : Report}
    (composed : composeResult setting path = .ok report) :
    Readable 7 (Result.success report).toJson := by
  obtain ⟨resolved, survey, graph, patterns, _, surveyed, _, _, rfl⟩ :=
    composeResult_eq_ok composed
  have nodup := Survey.nodup_paths_of_surveyResult surveyed
  have report := @Report.readable_reportOf 0 setting.clock resolved survey nodup graph patterns
  exact .record (by simp) ⟨.bool true, .null, report⟩

/-- Without prose, an analysis that succeeds gives the report that is composed. -/
theorem composeResult_of_run
    {setting : Setting} {path : String} {budget : Option Quantity} {report : Report}
    {calls : List Model.Call}
    (succeeded : (run setting path budget false).outcome.1 = .ok ⟨.success report, calls⟩) :
    composeResult setting path = .ok report := by
  have finished : resultFor setting path false = .ok ⟨.success report, calls⟩ := by
    rw [(run_gives setting path budget false).outcome] at succeeded
    unfold runResult at succeeded
    cases budget with
    | none => exact succeeded
    | some limit =>
        dsimp only at succeeded
        split at succeeded
        · cases succeeded
        · split at succeeded
          · cases succeeded
          · exact succeeded
  cases composed : composeResult setting path with
  | error fault =>
      rw [resultFor_of_error composed] at finished
      cases finished
  | ok other =>
      rw [resultFor_plain composed] at finished
      cases finished
      rfl

end Analysis

namespace CommandLine

/-- What is printed of an analysis that succeeds is its document on lines of its
own, unless a number in it has too many digits. -/
theorem perform_analyze
    {setting : Analysis.Setting} {path : String} {timeout : Option Binary64} {report : Report}
    {calls : List Model.Call}
    (succeeded : (Analysis.run setting path (timeout.map Quantity.real) false).outcome.1 =
      .ok ⟨.success report, calls⟩) :
    (perform setting (.analyze path true none false timeout)).1 =
      printReport setting.surroundings setting.limits true none (.success report) := by
  have printed :
      (perform setting (.analyze path true none false timeout)).1 =
        printOutcome setting.surroundings.disk
          (printReport setting.surroundings setting.limits true none)
          (Analysis.run setting path (timeout.map Quantity.real) false).outcome.1 :=
    rfl
  rw [printed, succeeded]
  rfl

section

variable (surroundings : Surroundings) (limits : Json.Limits) {report : Report}

/-- What is printed when a report can be copied. -/
theorem printReport_of_document?
    {document : Json} (copied : (Analysis.Result.success report).document? limits = some document) :
    printReport surroundings limits true none (.success report) =
      if !document.isWritable then
        { ending := .status 1, errors := Reading.unwritableText ++ "\n", disk := surroundings.disk }
      else printText surroundings.disk "" document.pretty := by
  simp only [printReport, copied, if_true]

theorem ending_printText_iff {disk : Disk.Item} {before : String} {text : RawText} :
    (printText disk before text).ending = .status 0 ↔ text.isProper = true := by
  cases text with
  | proper text => exact ⟨fun _ => rfl, fun _ => rfl⟩
  | broken front half behind => simp [printText, RawText.isProper, RawText.proper?]

theorem output_printText {disk : Disk.Item} {text : RawText} (proper : text.isProper = true) :
    ((printText disk "" text).output : RawText) = text ++ ("\n" : RawText) := by
  cases text with
  | proper text =>
      rw [← RawText.letters_inj, RawText.letters_append]
      simp [printText, RawText.proper?]
  | broken front half behind => cases proper

theorem output_printReport
    {document : Json} (copied : (Analysis.Result.success report).document? limits = some document)
    (writable : document.isWritable = true) (proper : document.isProper = true) :
    ((printReport surroundings limits true none (.success report)).output : RawText) =
      document.pretty ++ ("\n" : RawText) := by
  rw [printReport_of_document? surroundings limits copied, writable]
  exact output_printText (document.isProper_pretty.trans proper)

/-- A report is printed exactly if it can be copied, written and spelled. -/
theorem ending_printReport_iff :
    (printReport surroundings limits true none (.success report)).ending = .status 0 ↔
      ∃ document, (Analysis.Result.success report).document? limits = some document ∧
        document.isWritable = true ∧ document.isProper = true := by
  cases copied : (Analysis.Result.success report).document? limits with
  | none => simp [printReport, copied]
  | some document =>
      rw [printReport_of_document? surroundings limits copied]
      cases writable : document.isWritable with
      | false => simp [writable]
      | true => simp [writable, ending_printText_iff, Json.isProper_pretty]

theorem document?_of_bare (bare : report.enrichment = none) :
    (Analysis.Result.success report).document? limits =
      some (Analysis.Result.success report).toJson := by
  simp [Analysis.Result.document?, Analysis.Result.prose?, bare]

end

/-- The document of an analysis that succeeds is printed, unless a number in it
has more digits than are written or a text in it holds half a pair; and what is
printed is read back as the document, whatever texts stand in it. The files of
the report are those of the table, each path once. -/
theorem printed_report_reads_back
    {setting : Analysis.Setting} {path : String} {timeout : Option Binary64} {report : Report}
    {calls : List Model.Call}
    (succeeded : (Analysis.run setting path (timeout.map Quantity.real) false).outcome.1 =
      .ok ⟨.success report, calls⟩) :
    let printed := (perform setting (.analyze path true none false timeout)).1
    let document := (Analysis.Result.success report).toJson
    (printed.ending = .status 0 ↔ document.isWritable = true ∧ document.isProper = true) ∧
      (printed.ending = .status 0 →
        (printed.output : RawText) = document.pretty ++ ("\n" : RawText) ∧
          Json.read printed.output = .ok document) ∧
      ∃ files, (document.field "data").field "file_breakdown" = .object files ∧
        files.map (·.1) = report.table.paths.map .proper ∧ report.table.paths.Nodup := by
  intro printed document
  have composed := Analysis.composeResult_of_run succeeded
  have bare : report.enrichment = none := (Analysis.survey_of_composeResult composed).1
  have copied := document?_of_bare setting.limits bare
  have readable : Readable 7 document := Analysis.readable_of_composeResult composed
  have shown :
      printed = printReport setting.surroundings setting.limits true none (.success report) :=
    perform_analyze succeeded
  have ended :
      printed.ending = .status 0 ↔ document.isWritable = true ∧ document.isProper = true := by
    rw [shown, ending_printReport_iff, copied]
    simp [document]
  refine ⟨ended, ?_, report.table.entries.map fun file => (file.1, file.2.digest), rfl, ?_,
    Analysis.nodup_paths_of_composeResult composed⟩
  · intro finished
    obtain ⟨writable, proper⟩ := ended.mp finished
    have output := output_printReport setting.surroundings setting.limits copied writable proper
    have read := Json.read_pretty readable (by decide) writable
    rw [← shown] at output
    exact ⟨output, output ▸ read⟩
  · simp [Table.paths]

/-- The setting of a project that declares a version with a quote, a backslash, a
control character and a letter beyond ASCII. -/
def escapedSetting : Analysis.Setting where
  surroundings :=
    ⟨.directory true true
        [("project", .directory true true
          [("package.json",
            .file true
              ("\x7b\"dependencies\": \x7b\"react\": "
                ++ "\"\\\"1\\\\\\u0001ß\"\x7d\x7d").toUTF8.toList)])],
      "/", "/", []⟩
  clock := ""

theorem composeResult_escapedSetting :
    ∃ report, Analysis.composeResult escapedSetting "/project" = .ok report ∧
      (report.stack.map fun technology => technology.version) = [("\"1\\\x01ß" : RawText)] ∧
      (Analysis.Result.success report).toJson.isWritable = true ∧
      (Analysis.Result.success report).toJson.isProper = true := by
  have composed :
      (Analysis.composeResult escapedSetting "/project").toOption.map
        (fun report => (report.stack.map fun technology => technology.version,
          (Analysis.Result.success report).toJson.isWritable,
          (Analysis.Result.success report).toJson.isProper)) =
        some ([("\"1\\\x01ß" : RawText)], true, true) := by
    decide +kernel
  obtain ⟨report, had, seen⟩ := exists_ok_of_seen composed
  obtain ⟨versions, spelled⟩ := Prod.mk.inj seen
  exact ⟨report, had, versions, Prod.mk.inj spelled⟩

theorem printed_report_reads_back_escapedSetting :
    ∃ report,
      (Analysis.run escapedSetting "/project" ((none : Option Binary64).map Quantity.real)
        false).outcome.1 = .ok ⟨.success report, []⟩ ∧
      (report.stack.map fun technology => technology.version) = [("\"1\\\x01ß" : RawText)] ∧
      Json.read (perform escapedSetting (.analyze "/project" true none false none)).1.output =
        .ok (Analysis.Result.success report).toJson := by
  obtain ⟨report, composed, versions, spelled⟩ := composeResult_escapedSetting
  have succeeded := Analysis.run_plain composed
  have printed := @printed_report_reads_back escapedSetting "/project" none report [] succeeded
  exact ⟨report, succeeded, versions, (printed.2.1 (printed.1.mpr spelled)).2⟩

end CommandLine

end ModuleAtlas
