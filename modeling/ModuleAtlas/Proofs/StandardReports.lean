import ModuleAtlas.Proofs.DocumentParts
import ModuleAtlas.Proofs.NarratedProse
import ModuleAtlas.Proofs.PrintedReports
import ModuleAtlas.Service.Basic

/-!
# Reports with the prose of a model

The standard of the data format has no name for a number that is not finite.  A
report without prose holds none.  The prose of a model holds those that stand in
the records of its reply, at any depth, and no others: every other part of it is
text.  Records may also be nested too deeply to be copied or sent, and texts may
hold halves of pairs that cannot be spelled; what else a reply says does not keep
a report from being printed or sent.
-/

namespace ModuleAtlas

/-! ## Parts of prose -/

namespace Enrichment

/-- The records in prose, as they stood in the reply. -/
def allRecords (enrichment : Enrichment) : List Json :=
  enrichment.criticalIssues ++ enrichment.recommendations

/-- The texts in prose that are made of a reply, outside of its records. -/
def spoken (enrichment : Enrichment) : List RawText :=
  [enrichment.insights, enrichment.interfaceFlow, enrichment.componentFlow,
      enrichment.frameworkInsights] ++
    (enrichment.fileDescriptions.flatMap fun description => [description.1, description.2]) ++
    enrichment.missingDependencies

variable {spells : RawText → Prop} {holds : Nat → Json → Prop} {levels : Nat}

/-- What goes by parts, prose has when its texts and its records have it. -/
theorem holds_toJson_iff (parts : Json.GoesByParts spells holds) {enrichment : Enrichment} :
    holds (levels + 2) enrichment.toJson ↔
      (∀ text ∈ enrichment.spoken, spells text) ∧
        ∀ record ∈ enrichment.allRecords, holds levels record := by
  have descriptions :
      holds (levels + 1) (.object (enrichment.fileDescriptions.map fun description =>
        (description.1, .string description.2))) ↔
        ∀ description ∈ enrichment.fileDescriptions,
          spells description.1 ∧ spells description.2 := by
    simp only [parts.object_iff, List.forall_mem_map, parts.string_iff]
  have dependencies :
      holds (levels + 1) (Json.ofList .string enrichment.missingDependencies) ↔
        ∀ text ∈ enrichment.missingDependencies, spells text := by
    simp only [Json.ofList, parts.array_iff, List.forall_mem_map, parts.string_iff]
  have remark :
      holds (levels + 1)
        (Json.ofOption (fun remark : String => .string remark) enrichment.remark) := by
    cases enrichment.remark with
    | none => exact parts.null
    | some text => exact parts.string text
  have described :
      (∀ text ∈ enrichment.fileDescriptions.flatMap fun description =>
          [description.1, description.2], spells text) ↔
        ∀ description ∈ enrichment.fileDescriptions,
          spells description.1 ∧ spells description.2 := by
    simp only [List.forall_mem_flatMap, List.forall_mem_cons, List.not_mem_nil, false_implies,
      implies_true, and_true]
  rw [toJson, parts.object_iff]
  simp only [fields, spoken, allRecords, List.forall_mem_append, List.forall_mem_cons,
    List.not_mem_nil, false_implies, implies_true, parts.proper, parts.string_iff, parts.bool,
    descriptions, dependencies, described, remark, parts.array_iff, true_and, and_true]
  tauto

/-- Of prose, only the records may be nested too deeply to be copied. -/
theorem isCopied_iff {calls : Nat} (room : 7 ≤ calls) {enrichment : Enrichment} :
    enrichment.isCopied calls = true ↔
      ∀ record ∈ enrichment.allRecords, record.copyingCalls + 2 ≤ calls := by
  obtain ⟨most, rfl⟩ : ∃ most, calls = most + 2 := ⟨calls - 2, by omega⟩
  have shallow : 3 ≤ most := by omega
  have flat : 3 ≤ most + 2 := by omega
  have descriptions :
      (Json.object (enrichment.fileDescriptions.map fun description =>
        (description.1, .string description.2))).copyingCalls ≤ most + 2 := by
    rw [Json.copyingCalls_object_le_iff shallow]
    simp only [List.forall_mem_map, Json.copyingCalls_string, shallow, implies_true]
  have dependencies :
      (Json.ofList .string enrichment.missingDependencies).copyingCalls ≤ most + 2 := by
    rw [Json.ofList, Json.copyingCalls_array_le_iff]
    simp only [List.forall_mem_map, Json.copyingCalls_string, shallow, implies_true]
  have remark :
      (Json.ofOption (fun remark : String => .string remark) enrichment.remark).copyingCalls ≤
        most + 2 := by
    cases enrichment.remark with
    | none => simpa [Json.ofOption] using flat
    | some text => simpa [Json.ofOption] using flat
  simp only [isCopied, fields, allRecords, List.all_eq_true, decide_eq_true_eq,
    List.forall_mem_append, List.forall_mem_cons, List.not_mem_nil, false_implies, implies_true,
    Json.copyingCalls_string, Json.copyingCalls_bool, flat, descriptions, dependencies, remark,
    Json.copyingCalls_array_le_iff, Nat.add_le_add_iff_right, true_and, and_true]

end Enrichment

section

variable {spells : RawText → Prop} {holds : Nat → Json → Prop} {levels : Nat}

/-- Prose changes nothing but itself in what goes by the parts of a result. -/
theorem Analysis.holds_success_iff
    (parts : Json.GoesByParts spells holds) {report : Report} (bare : report.enrichment = none)
    (enrichment : Enrichment) :
    holds (levels + 2) (Result.success { report with enrichment := some enrichment }).toJson ↔
      holds (levels + 2) (Result.success report).toJson ∧ holds levels enrichment.toJson := by
  simp only [Result.toJson, Report.toJson, parts.object_iff, List.forall_mem_cons,
    List.not_mem_nil, false_implies, implies_true, bare, Json.ofOption, parts.null, parts.proper,
    true_and, and_true]
  tauto

end

namespace Report

variable (report : Report) (reason : String)

theorem exists_spelled_of_mem_spoken
    {text : RawText} (member : text ∈ (report.basicEnrichment reason).spoken) :
    ∃ spelled : String, text = spelled := by
  simp only [basicEnrichment, Enrichment.spoken, List.mem_append, List.mem_cons, List.mem_flatMap,
    List.mem_map, List.not_mem_nil, or_false] at member
  rcases member with (rfl | rfl | rfl | rfl) | ⟨_, ⟨description, _, rfl⟩, rfl | rfl⟩
  · exact ⟨_, rfl⟩
  · exact ⟨_, rfl⟩
  · exact ⟨_, rfl⟩
  · exact ⟨_, rfl⟩
  · exact ⟨_, rfl⟩
  · exact ⟨_, rfl⟩

/-- The records of the basic prose hold texts only. -/
theorem exists_flat_of_mem_allRecords
    {record : Json} (member : record ∈ (report.basicEnrichment reason).allRecords) :
    ∃ fields : List (String × String),
      record = .object (fields.map fun field => (.proper field.1, .string field.2)) := by
  rcases List.mem_append.mp member with critical | advice
  · obtain ⟨issue, _, rfl⟩ := List.mem_map.mp critical
    exact ⟨[("type", _), ("severity", _), ("file", _), ("description", _), ("remediation", _)],
      rfl⟩
  · unfold basicEnrichment at advice
    dsimp only at advice
    split at advice
    · cases advice
    · rw [List.mem_singleton.mp advice]
      exact ⟨[("category", _), ("priority", _), ("description", _), ("implementation", _)], rfl⟩

/-- The basic prose has whatever goes by parts. -/
theorem holds_basicEnrichment
    {spells : RawText → Prop} {holds : Nat → Json → Prop} (parts : Json.GoesByParts spells holds)
    (levels : Nat) :
    holds (levels + 3) (report.basicEnrichment reason).toJson := by
  rw [Enrichment.holds_toJson_iff parts]
  constructor
  · intro text member
    obtain ⟨spelled, rfl⟩ := report.exists_spelled_of_mem_spoken reason member
    exact parts.proper spelled
  · intro record member
    obtain ⟨fields, rfl⟩ := report.exists_flat_of_mem_allRecords reason member
    simp only [parts.object_iff, List.forall_mem_map, parts.proper, parts.string, and_self,
      implies_true]

theorem isCopied_basicEnrichment {calls : Nat} (room : 7 ≤ calls) :
    (report.basicEnrichment reason).isCopied calls = true := by
  rw [Enrichment.isCopied_iff room]
  intro record member
  obtain ⟨fields, rfl⟩ := report.exists_flat_of_mem_allRecords reason member
  have flat :
      (Json.object (fields.map fun field => (.proper field.1, .string field.2))).copyingCalls ≤
        3 + 2 := by
    rw [Json.copyingCalls_object_le_iff (Nat.le_refl 3)]
    simp only [List.forall_mem_map, Json.copyingCalls_string, Nat.le_refl, implies_true]
  omega

end Report

/-! ## Replies -/

namespace Enrichment

variable {fields : List (RawText × Json)} {enrichment : Enrichment}

/-- Every record that the prose takes over from a reply has a property. -/
def EachRecord (fields : List (RawText × Json)) (holds : Json → Prop) : Prop :=
  ∀ key ∈ ["criticalIssues", "recommendations"], ∀ items, (.proper key, .array items) ∈ fields →
    ∀ members, .object members ∈ items → holds (.object members)

/-- A text that the prose takes over from a reply, outside of its records. -/
inductive Speaks (fields : List (RawText × Json)) : RawText → Prop
  | said {key : String} {text : RawText} :
      key ∈ ["semanticInsights", "apiFlow", "componentFlow", "frameworkInsights"] →
        (.proper key, .string text) ∈ fields → Speaks fields text
  | path {members : List (RawText × Json)} {path : RawText} {value : Json} :
      (.proper "fileDescriptions", .object members) ∈ fields → (path, value) ∈ members →
        Speaks fields path
  | description {members : List (RawText × Json)} {path text : RawText} :
      (.proper "fileDescriptions", .object members) ∈ fields → (path, .string text) ∈ members →
        Speaks fields text
  | dependency {items : List Json} {text : RawText} :
      (.proper "missingDependencies", .array items) ∈ fields → .string text ∈ items →
      Speaks fields text

/-- A reply whose prose can be copied and spelled. -/
structure IsPrintable (limits : Json.Limits) (fields : List (RawText × Json)) : Prop where
  copied : EachRecord fields fun record => record.copyingCalls + 2 ≤ limits.calls
  texts : ∀ text, Speaks fields text → text.isProper = true
  records : EachRecord fields fun record => record.isProper = true

/-- A reply whose prose can also be sent, with only finite numbers in it and not too
deeply nested for that. -/
structure IsSendable (limits : Json.Limits) (fields : List (RawText × Json)) : Prop
    extends IsPrintable limits fields where
  finite : EachRecord fields fun record => record.isStandard = true
  shallow : EachRecord fields fun record => record.nesting + 4 ≤ limits.levels

theorem mem_records_iff {items : List Json} {record : Json} :
    record ∈ records items ↔ record ∈ items ∧ ∃ members, record = .object members := by
  simp only [records, List.mem_filter, Option.isSome_iff_exists, Json.object?_eq_some_iff]

section

variable {α β : Type} {key : RawText} {form : α → Json} {make : α → List β} {taken : List β}

/-- What is made of a reply has a property when all that may stand there leads to it. -/
theorem IsMadeOf.forall_mem_iff
    (made : IsMadeOf fields key form make [] taken) {holds : β → Prop} :
    (∀ item ∈ taken, holds item) ↔
      ∀ value, (key, form value) ∈ fields → ∀ item ∈ make value, holds item := by
  constructor
  · intro all value stands
    rwa [made.1 value stands] at all
  · intro all
    by_cases stands : ∃ value, (key, form value) ∈ fields
    · obtain ⟨value, stands⟩ := stands
      rw [made.1 value stands]
      exact all value stands
    · rw [made.2 (not_exists.mp stands)]
      exact fun _ member => absurd member List.not_mem_nil

theorem IsMadeOf.isProper_iff {text : RawText} (made : IsMadeOf fields key .string id "" text) :
    text.isProper = true ↔ ∀ value, (key, .string value) ∈ fields → value.isProper = true := by
  constructor
  · intro proper value stands
    rwa [made.1 value stands] at proper
  · intro all
    by_cases stands : ∃ value, (key, Json.string value) ∈ fields
    · obtain ⟨value, stands⟩ := stands
      rw [made.1 value stands]
      exact all value stands
    · rw [made.2 (not_exists.mp stands)]
      rfl

end

/-- The records of prose are those of the reply. -/
theorem IsTold.forall_allRecords_iff
    (told : IsTold fields enrichment) {holds : Json → Prop} :
    (∀ record ∈ enrichment.allRecords, holds record) ↔ EachRecord fields holds := by
  have objects {items : List Json} :
      (∀ record ∈ records items, holds record) ↔
        ∀ members, .object members ∈ items → holds (.object members) := by
    simp only [mem_records_iff]
    exact ⟨fun all members member => all _ ⟨member, members, rfl⟩,
      fun all record ⟨member, members, same⟩ => same ▸ all members (same ▸ member)⟩
  simp only [allRecords, List.forall_mem_append, told.criticalIssues.forall_mem_iff,
    told.recommendations.forall_mem_iff, objects, EachRecord, List.forall_mem_cons,
    List.not_mem_nil, false_implies, implies_true, and_true]

/-- A document as plain text can be spelled unless it is a text that cannot. -/
theorem isProper_plain_iff {document : Json} :
    document.plain.isProper = true ↔
      ∀ text, document = .string text → text.isProper = true := by
  cases document with
  | string value => simp [Json.plain]
  | _ => simp [Json.plain, RawText.isProper, RawText.proper?]

theorem forall_speaks_iff {spells : RawText → Prop} :
    (∀ text, Speaks fields text → spells text) ↔
      (∀ key ∈ ["semanticInsights", "apiFlow", "componentFlow", "frameworkInsights"],
        ∀ text, (.proper key, .string text) ∈ fields → spells text) ∧
      (∀ members, (.proper "fileDescriptions", .object members) ∈ fields →
        ∀ member ∈ members,
          spells member.1 ∧ ∀ text, member.2 = .string text → spells text) ∧
      ∀ items, (.proper "missingDependencies", .array items) ∈ fields →
        ∀ item ∈ items, ∀ text, item = .string text → spells text := by
  constructor
  · intro all
    refine ⟨fun key known text stands => all text (.said known stands), ?_, ?_⟩
    · rintro members stands ⟨path, value⟩ member
      refine ⟨all path (.path stands member), ?_⟩
      rintro text rfl
      exact all text (.description stands member)
    · rintro items stands item member text rfl
      exact all text (.dependency stands member)
  · rintro ⟨said, described, missing⟩ text spoken
    cases spoken with
    | said known stands => exact said _ known text stands
    | path stands member => exact (described _ stands _ member).1
    | description stands member => exact (described _ stands _ member).2 text rfl
    | dependency stands member => exact missing _ stands _ member text rfl

/-- The texts of prose can be spelled when those of the reply can. -/
theorem IsTold.forall_spoken_iff (told : IsTold fields enrichment) :
    (∀ text ∈ enrichment.spoken, text.isProper = true) ↔
      ∀ text, Speaks fields text → text.isProper = true := by
  have described :
      (∀ text ∈ enrichment.fileDescriptions.flatMap fun description =>
          [description.1, description.2], text.isProper = true) ↔
        ∀ members, (.proper "fileDescriptions", .object members) ∈ fields →
          ∀ member ∈ members,
            member.1.isProper = true ∧ ∀ text, member.2 = .string text → text.isProper = true := by
    simp only [List.forall_mem_flatMap, List.forall_mem_cons, List.not_mem_nil, false_implies,
      implies_true, and_true, told.descriptions.forall_mem_iff, plainFields, List.forall_mem_map,
      isProper_plain_iff]
  have missing :
      (∀ text ∈ enrichment.missingDependencies, text.isProper = true) ↔
        ∀ items, (.proper "missingDependencies", .array items) ∈ fields →
          ∀ item ∈ items, ∀ text, item = .string text → text.isProper = true := by
    simp only [told.dependencies.forall_mem_iff, List.forall_mem_map, isProper_plain_iff]
  simp only [forall_speaks_iff, spoken, List.forall_mem_append, described, missing,
    List.forall_mem_cons, List.not_mem_nil, false_implies, implies_true, and_true,
    told.insights.isProper_iff, told.interfaceFlow.isProper_iff,
    told.componentFlow.isProper_iff, told.frameworkInsights.isProper_iff, and_assoc]

theorem IsTold.isWritable (told : IsTold fields enrichment) :
    ∀ record ∈ enrichment.allRecords, record.isWritable = true := by
  rw [told.forall_allRecords_iff]
  intro key _ items stands members member
  have written := told.writable _ stands
  exact Json.isWritable_array_iff.mp written _ member

theorem IsTold.isStandard_iff (told : IsTold fields enrichment) :
    enrichment.toJson.isStandard = true ↔
      EachRecord fields fun record => record.isStandard = true := by
  have parts := @holds_toJson_iff _ _ 0 Json.isStandard_goesByParts enrichment
  rw [parts, told.forall_allRecords_iff]
  simp only [implies_true, true_and]

theorem IsTold.isWritable_toJson (told : IsTold fields enrichment) :
    enrichment.toJson.isWritable = true := by
  have parts := @holds_toJson_iff _ _ 0 Json.isWritable_goesByParts enrichment
  exact parts.mpr ⟨fun _ _ => trivial, told.isWritable⟩

/-- Whether prose keeps a report from being printed depends on the reply. -/
theorem IsTold.isPrintable_iff (told : IsTold fields enrichment) (limits : Json.Limits) :
    enrichment.isCopied limits.calls = true ∧ enrichment.toJson.isProper = true ↔
      IsPrintable limits fields := by
  have parts := @holds_toJson_iff _ _ 0 Json.isProper_goesByParts enrichment
  rw [isCopied_iff limits.roomy.1, parts, told.forall_allRecords_iff, told.forall_allRecords_iff,
    told.forall_spoken_iff]
  constructor
  · intro given
    obtain ⟨copied, texts, records⟩ := given
    exact ⟨copied, texts, records⟩
  · intro printable
    exact ⟨printable.copied, printable.texts, printable.records⟩

/-- Whether prose keeps a report from being sent depends on the reply. -/
theorem IsTold.isSendable_iff
    (told : IsTold fields enrichment) {limits : Json.Limits} {levels : Nat}
    (same : limits.levels = levels + 4) :
    enrichment.isCopied limits.calls = true ∧ enrichment.toJson.isSendable (levels + 2) = true ↔
      IsSendable limits fields := by
  have parts := @holds_toJson_iff _ _ levels Json.isSendable_goesByParts enrichment
  have split :
      (∀ record ∈ enrichment.allRecords, record.isSendable levels = true) ↔
        (∀ record ∈ enrichment.allRecords, record.nesting + 4 ≤ limits.levels) ∧
          (∀ record ∈ enrichment.allRecords, record.isStandard = true) ∧
          ∀ record ∈ enrichment.allRecords, record.isProper = true := by
    simp only [Json.isSendable, Bool.and_eq_true, decide_eq_true_eq, forall₂_and, same,
      Nat.add_le_add_iff_right, iff_true_intro told.isWritable, true_and, and_assoc]
  rw [isCopied_iff limits.roomy.1, parts, split, told.forall_spoken_iff,
    told.forall_allRecords_iff, told.forall_allRecords_iff, told.forall_allRecords_iff,
    told.forall_allRecords_iff]
  constructor
  · intro given
    obtain ⟨copied, texts, shallow, finite, records⟩ := given
    exact ⟨⟨copied, texts, records⟩, finite, shallow⟩
  · intro sendable
    exact ⟨sendable.copied, sendable.texts, sendable.shallow, sendable.finite, sendable.records⟩

end Enrichment

/-! ## Reports -/

namespace Report

open Prompt (AnsweredWith)

/-- What basic prose always has, the prose about a report has exactly if the reply of
a model, where there is one, leads to it. -/
theorem holds_prose_iff
    (report : Report) (narrator : Option Narrator) {holds : Enrichment → Prop}
    {leads : List (RawText × Json) → Prop}
    (told : ∀ fields enrichment, Enrichment.IsTold fields enrichment →
      (holds enrichment ↔ leads fields))
    (basic : ∀ reason, holds (report.basicEnrichment reason)) :
    holds (report.prose narrator).1 ↔
      ∀ fields, AnsweredWith report.question narrator fields → leads fields := by
  unfold prose
  constructor
  · intro kept fields answered
    exact (told fields _ (report.isTold_prose answered)).mp kept
  · intro leading
    rcases Prompt.answered_or_unanswered report.question narrator with
      ⟨fields, answered⟩ | ⟨reason, unanswered⟩
    · exact (told fields _ (report.isTold_prose answered)).mpr (leading fields answered)
    · rw [report.prose_of_unansweredFor unanswered]
      exact basic reason

theorem isWritable_prose (report : Report) (narrator : Option Narrator) :
    (report.prose narrator).1.toJson.isWritable = true := by
  have always := @holds_prose_iff report narrator (fun prose => prose.toJson.isWritable = true)
    (fun _ => True) (fun _ _ told => iff_true_intro told.isWritable_toJson)
    fun reason => report.holds_basicEnrichment reason Json.isWritable_goesByParts 0
  exact always.mpr fun _ _ => trivial

end Report

namespace Analysis

/-- The document of a report with prose is there when the prose can be copied. -/
theorem document?_enriched_iff
    {limits : Json.Limits} {report : Report} {enrichment : Enrichment} {document : Json} :
    (Result.success { report with enrichment := some enrichment }).document? limits =
        some document ↔
      enrichment.isCopied limits.calls = true ∧
        (Result.success { report with enrichment := some enrichment }).toJson = document := by
  rw [Result.document?, Result.prose?, Option.all_some, Option.ite_none_right_eq_some,
    Option.some_inj]

end Analysis

/-- A report is sent exactly if its document can be. -/
theorem Service.present_analyze_iff {limits : Json.Limits} {report : Report} :
    (∃ body, Route.analyze.present limits report = .ok (.answered 200 body)) ↔
      ∃ document, (Analysis.Result.success report).document? limits = some document ∧
        document.isSendable limits.levels = true := by
  unfold Route.present
  dsimp only
  cases (Analysis.Result.success report).document? limits with
  | none => simp [refuse]
  | some document =>
      cases sendable : document.isSendable limits.levels with
      | false => simp [send, sendable]
      | true => simp [send, sendable]

namespace Analysis

open Prompt (AnsweredWith)

section

variable {limits : Json.Limits} {report : Report} (bare : report.enrichment = none)

include bare

/-- With prose, a report is printed if it is without, and the prose allows it. -/
theorem ending_printReport_enriched_iff (surroundings : Surroundings) (enrichment : Enrichment) :
    (CommandLine.printReport surroundings limits true none
        (.success { report with enrichment := some enrichment })).ending = .status 0 ↔
      (CommandLine.printReport surroundings limits true none (.success report)).ending =
          .status 0 ∧
        enrichment.toJson.isWritable = true ∧
        enrichment.isCopied limits.calls = true ∧ enrichment.toJson.isProper = true := by
  have written := @holds_success_iff _ _ 0 Json.isWritable_goesByParts report bare enrichment
  have spelled := @holds_success_iff _ _ 0 Json.isProper_goesByParts report bare enrichment
  rw [CommandLine.ending_printReport_iff, CommandLine.ending_printReport_iff,
    CommandLine.document?_of_bare limits bare]
  constructor
  · rintro ⟨document, copied, writable, proper⟩
    obtain ⟨fits, rfl⟩ := document?_enriched_iff.mp copied
    obtain ⟨plainWritable, proseWritable⟩ := written.mp writable
    obtain ⟨plainProper, proseProper⟩ := spelled.mp proper
    exact ⟨⟨_, rfl, plainWritable, plainProper⟩, proseWritable, fits, proseProper⟩
  · rintro ⟨⟨document, copied, plainWritable, plainProper⟩, proseWritable, fits, proseProper⟩
    obtain rfl := Option.some.inj copied
    exact ⟨_, document?_enriched_iff.mpr ⟨fits, rfl⟩, written.mpr ⟨plainWritable, proseWritable⟩,
      spelled.mpr ⟨plainProper, proseProper⟩⟩

/-- With prose, a report is sent if it is without, and the prose allows it. -/
theorem present_enriched_iff
    {levels : Nat} (same : limits.levels = levels + 4) (enrichment : Enrichment) :
    (∃ body, Service.Route.analyze.present limits
        { report with enrichment := some enrichment } = .ok (.answered 200 body)) ↔
      (∃ body, Service.Route.analyze.present limits report = .ok (.answered 200 body)) ∧
        enrichment.isCopied limits.calls = true ∧
        enrichment.toJson.isSendable (levels + 2) = true := by
  have sent :=
    @holds_success_iff _ _ (levels + 2) Json.isSendable_goesByParts report bare enrichment
  rw [Service.present_analyze_iff, Service.present_analyze_iff,
    CommandLine.document?_of_bare limits bare, same]
  constructor
  · rintro ⟨document, copied, sendable⟩
    obtain ⟨fits, rfl⟩ := document?_enriched_iff.mp copied
    obtain ⟨plain, prose⟩ := sent.mp sendable
    exact ⟨⟨_, rfl, plain⟩, fits, prose⟩
  · rintro ⟨⟨document, copied, plain⟩, fits, prose⟩
    obtain rfl := Option.some.inj copied
    exact ⟨_, document?_enriched_iff.mpr ⟨fits, rfl⟩, sent.mpr ⟨plain, prose⟩⟩

end

/-- A reply with a record whose number is none. -/
def unnumberedReply : RawText := "\x7b\"criticalIssues\": [\x7b\"line\": NaN\x7d]\x7d"

/-- The setting of an empty project, with a model that gives this reply. -/
def unnumberedSetting : Setting where
  surroundings := ⟨.directory true true [("project", .directory true true [])], "/", "/", []⟩
  clock := ""
  narrator := some (Narrator.ofReply "" unnumberedReply)

theorem exists_composeResult_unnumberedSetting :
    ∃ report, composeResult unnumberedSetting "/project" = .ok report := by
  have composed : (composeResult unnumberedSetting "/project").toOption.isSome = true := by
    decide +kernel
  obtain ⟨report, had⟩ := Option.isSome_iff_exists.mp composed
  exact ⟨report, toOption_eq_some_iff.mp had⟩

theorem exists_readReply_unnumberedReply :
    ∃ fields, Enrichment.readReply unnumberedReply = .ok fields ∧
      (Enrichment.ofReply fields).toJson.isStandard = false := by
  have read :
      (Enrichment.readReply unnumberedReply).toOption.map
        (fun fields => (Enrichment.ofReply fields).toJson.isStandard) = some false := by
    decide +kernel
  exact exists_ok_of_seen read

end Analysis

end ModuleAtlas
