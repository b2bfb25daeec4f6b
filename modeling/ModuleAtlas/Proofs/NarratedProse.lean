import ModuleAtlas.Proofs.AnalysisOutcome
import ModuleAtlas.Proofs.ReadDocuments
import ModuleAtlas.Proofs.SortedIssues

/-!
# Narrated prose

Asking for prose about a report always gives some.  It is that of a model
exactly when a model answers with an object; then every part of it has its
shape, whatever the types in the object.  Otherwise it says what was missing,
describes every file and lists every problem of the report.
-/

namespace ModuleAtlas

namespace Enrichment

/-! ## Shapes -/

/-- What a field of prose holds. -/
inductive Shape where
  | flag
  | text
  | optionalText
  | texts
  | textsByKey
  | records
  deriving DecidableEq, Repr

/-- Whether a document has a shape. -/
def Shape.fits : Shape → Json → Bool
  | .flag, .bool _ => true
  | .text, .string _ => true
  | .optionalText, .null => true
  | .optionalText, .string _ => true
  | .texts, .array items => items.all fun item => item.string?.isSome
  | .textsByKey, .object fields =>
      decide (fields.map (·.1)).Nodup && fields.all fun field => field.2.string?.isSome
  | .records, .array items => items.all fun item => item.object?.isSome
  | _, _ => false

/-- The fields of prose in their order, each with its shape. -/
def declaredShapes : List (RawText × Shape) :=
  [("source", .text), ("basic_only", .flag), ("semantic_insights", .text),
    ("file_descriptions", .textsByKey), ("api_flow", .text), ("component_flow", .text),
    ("critical_issues", .records), ("recommendations", .records),
    ("missing_dependencies", .texts), ("framework_insights", .text),
    ("message", .optionalText)]

/-- A document with all the fields of prose, each of its shape. -/
def IsDeclared (document : Json) : Prop :=
  ∃ fields, document = .object fields ∧
    List.Forall₂ (fun declared field => declared.1 = field.1 ∧ declared.2.fits field.2 = true)
      declaredShapes fields

theorem isDeclared_toJson
    {enrichment : Enrichment}
    (described : (enrichment.fileDescriptions.map (·.1)).Nodup)
    (issues : ∀ record ∈ enrichment.criticalIssues, record.object?.isSome = true)
    (advice : ∀ record ∈ enrichment.recommendations, record.object?.isSome = true) :
    IsDeclared enrichment.toJson := by
  have descriptions :
      Shape.textsByKey.fits (.object (enrichment.fileDescriptions.map fun description =>
        (description.1, .string description.2))) = true := by
    simp only [Shape.fits, List.map_map, Bool.and_eq_true, decide_eq_true_eq, List.all_map]
    exact ⟨described, List.all_eq_true.mpr fun _ _ => rfl⟩
  have dependencies :
      Shape.texts.fits (Json.ofList .string enrichment.missingDependencies) = true := by
    simp only [Json.ofList, Shape.fits, List.all_map]
    exact List.all_eq_true.mpr fun _ _ => rfl
  have remark :
      Shape.optionalText.fits
        (Json.ofOption (fun remark : String => .string remark) enrichment.remark) = true := by
    cases enrichment.remark with
    | none => rfl
    | some text => rfl
  refine ⟨_, rfl, .cons ⟨rfl, rfl⟩ <| .cons ⟨rfl, rfl⟩ <| .cons ⟨rfl, rfl⟩ <|
    .cons ⟨rfl, descriptions⟩ <| .cons ⟨rfl, rfl⟩ <| .cons ⟨rfl, rfl⟩ <|
    .cons ⟨rfl, List.all_eq_true.mpr issues⟩ <| .cons ⟨rfl, List.all_eq_true.mpr advice⟩ <|
    .cons ⟨rfl, dependencies⟩ <| .cons ⟨rfl, rfl⟩ <| .cons ⟨rfl, remark⟩ .nil⟩

/-! ## Prose of a model -/

section

variable {α β : Type} {fields : List (RawText × Json)}

/-- A result that is made of what stands under a key in one form, and is a
substitute where nothing of that form stands there. -/
def IsMadeOf (fields : List (RawText × Json)) (key : RawText) (form : α → Json) (make : α → β)
    (substitute result : β) : Prop :=
  (∀ value, (key, form value) ∈ fields → result = make value) ∧
    ((∀ value, (key, form value) ∉ fields) → result = substitute)

theorem isMadeOf_lookup
    (nodup : (fields.map (·.1)).Nodup) (key : RawText) {read : Json → Option α} {form : α → Json}
    (reads : ∀ document value, read document = some value ↔ document = form value)
    (make : α → β) (absent : α) :
    IsMadeOf fields key form make (make absent)
      (make (((fields.lookup key).bind read).getD absent)) := by
  have found : ∀ value,
      (fields.lookup key).bind read = some value ↔ (key, form value) ∈ fields := by
    intro value
    simp only [Option.bind_eq_some_iff, reads, lookup_eq_some_iff_mem nodup, exists_eq_right]
  constructor
  · intro value member
    rw [(found value).mpr member, Option.getD_some]
  · intro nowhere
    have missing : (fields.lookup key).bind read = none := by
      rw [Option.eq_none_iff_forall_ne_some]
      intro value here
      exact nowhere value ((found value).mp here)
    rw [missing, Option.getD_none]

/-- The records among documents. -/
def records (items : List Json) : List Json :=
  items.filter fun item => item.object?.isSome

/-- Documents under their keys as plain texts. -/
def plainFields (members : List (RawText × Json)) : List (RawText × RawText) :=
  members.map fun member => (member.1, member.2.plain)

/-- Prose that tells what the fields of an object say, whatever else they hold. -/
structure IsTold (fields : List (RawText × Json)) (enrichment : Enrichment) : Prop where
  source : enrichment.source = "llm"
  isBasic : enrichment.isBasic = false
  declared : IsDeclared enrichment.toJson
  insights : IsMadeOf fields "semanticInsights" .string id "" enrichment.insights
  interfaceFlow : IsMadeOf fields "apiFlow" .string id "" enrichment.interfaceFlow
  componentFlow : IsMadeOf fields "componentFlow" .string id "" enrichment.componentFlow
  frameworkInsights :
    IsMadeOf fields "frameworkInsights" .string id "" enrichment.frameworkInsights
  descriptions :
    IsMadeOf fields "fileDescriptions" .object plainFields [] enrichment.fileDescriptions
  criticalIssues : IsMadeOf fields "criticalIssues" .array records [] enrichment.criticalIssues
  recommendations :
    IsMadeOf fields "recommendations" .array records [] enrichment.recommendations
  dependencies :
    IsMadeOf fields "missingDependencies" .array (List.map Json.plain) []
      enrichment.missingDependencies
  remark : enrichment.remark = none
  /-- Nothing has too many digits to be put into a text. -/
  writable : ∀ field ∈ fields, field.2.isWritable = true

theorem isSome_object?_of_mem_objectsAt
    {key : RawText} {record : Json} (member : record ∈ objectsAt fields key) :
    record.object?.isSome = true :=
  (List.mem_filter.mp member).2

theorem nodup_keys_plainFields
    {levels : Nat} {members : List (RawText × Json)} (given : Json.Given levels (.object members)) :
    ((plainFields members).map (·.1)).Nodup := by
  cases given with
  | object nodup _ =>
      rw [plainFields, List.map_map]
      exact nodup

/-- Whatever the types in an object that is read, the prose made of it tells what
it says. -/
theorem isTold_ofReply {levels : Nat} (given : Json.Given levels (.object fields)) :
    IsTold fields (ofReply fields) := by
  obtain ⟨nodup, values⟩ :
      (fields.map (·.1)).Nodup ∧ ∀ field ∈ fields, ∃ levels, Json.Given levels field.2 := by
    cases given with
    | object nodup values => exact ⟨nodup, fun field member => ⟨_, values field member⟩⟩
  have text (key : RawText) : IsMadeOf fields key .string id "" (textAt fields key) :=
    isMadeOf_lookup nodup key Json.string?_eq_some_iff id ""
  have array {γ : Type} (key : RawText) (make : List Json → List γ) :=
    isMadeOf_lookup nodup key Json.array?_eq_some_iff make []
  have descriptions :
      IsMadeOf fields "fileDescriptions" .object plainFields [] (ofReply fields).fileDescriptions :=
    isMadeOf_lookup nodup "fileDescriptions" Json.object?_eq_some_iff plainFields []
  have described : ((ofReply fields).fileDescriptions.map (·.1)).Nodup := by
    by_cases found : ∃ members, (("fileDescriptions" : RawText), Json.object members) ∈ fields
    · obtain ⟨members, member⟩ := found
      obtain ⟨_, membersGiven⟩ := values _ member
      rw [descriptions.1 members member]
      exact nodup_keys_plainFields membersGiven
    · rw [descriptions.2 (not_exists.mp found)]
      exact List.nodup_nil
  exact
    { source := rfl
      isBasic := rfl
      declared := isDeclared_toJson described (fun _ => isSome_object?_of_mem_objectsAt)
        (fun _ => isSome_object?_of_mem_objectsAt)
      insights := text _
      interfaceFlow := text _
      componentFlow := text _
      frameworkInsights := text _
      descriptions := descriptions
      criticalIssues := array _ records
      recommendations := array _ records
      dependencies := array _ (List.map Json.plain)
      remark := rfl
      writable := by
        intro field member
        obtain ⟨_, fieldGiven⟩ := values field member
        exact fieldGiven.isWritable }

theorem given_of_readReply {reply : RawText} (succeeded : readReply reply = .ok fields) :
    Json.Given Json.deepestNesting (.object fields) := by
  unfold readReply at succeeded
  dsimp only at succeeded
  split at succeeded
  · cases succeeded
  · next read =>
    cases succeeded
    exact Json.given_of_read read
  · cases succeeded

end

end Enrichment

/-! ## Prose without a model -/

namespace Report

/-- Records that list every problem of a report once, the worst first. -/
structure IsListedBy (report : Report) (records : List Json) : Prop where
  groups :
    records =
      (report.issues.critical ++ report.issues.high ++ report.issues.medium ++
        report.issues.low).map Issue.toJson
  /-- Of problems that were sorted, none is lost and none comes before a worse one. -/
  sorted :
    ∀ issues, report.issues = SortedIssues.ofList issues →
      (∀ issue ∈ issues, issue.severity.name ∈ severityWords) →
      ∃ listed : List Issue, records = listed.map Issue.toJson ∧ listed.Perm issues ∧
        listed.Pairwise fun left right => left.severity.rank ≤ right.severity.rank

/-- Prose that says why no model told anything, and what is known without one. -/
structure IsBasicFor (report : Report) (reason : String) (enrichment : Enrichment) : Prop where
  source : enrichment.source = "fallback"
  isBasic : enrichment.isBasic = true
  remark : enrichment.remark = some ("basic analysis only: " ++ reason)
  files : enrichment.fileDescriptions.map (·.1) = report.table.paths.map .proper
  problems : report.IsListedBy enrichment.criticalIssues

theorem isListedBy_all (report : Report) :
    report.IsListedBy (report.issues.all.map Issue.toJson) where
  groups := rfl
  sorted := by
    intro issues sorted known
    have everything :
        (issues.filter fun issue => decide (issue.severity.name ∈ severityWords)) = issues := by
      rw [List.filter_eq_self]
      exact fun issue member => decide_eq_true (known issue member)
    refine ⟨report.issues.all, rfl, ?_⟩
    rw [sorted, SortedIssues.all_ofList, everything]
    exact ⟨List.mergeSort_perm _ _,
      pairwise_mergeSort_rank (fun issue : Issue => issue.severity.rank) issues⟩

theorem isBasicFor_basicEnrichment (report : Report) (reason : String) :
    report.IsBasicFor reason (report.basicEnrichment reason) where
  source := rfl
  isBasic := rfl
  remark := rfl
  files := by
    simp [basicEnrichment, Enrichment.describeFiles]
  problems := report.isListedBy_all

end Report

/-! ## Answers -/

namespace Prompt

/-- Somebody is asked a question and answers with the fields of an object. -/
inductive AnsweredWith :
    Except String Request → Option Narrator → List (RawText × Json) → Prop
  | read {request : Request} {narrator : Narrator} {reply : RawText}
      {fields : List (RawText × Json)} :
      (narrator.ask request.messages).2.2 = .ok reply →
        Enrichment.readReply reply = .ok fields →
        AnsweredWith (.ok request) (some narrator) fields

/-- A question gets no answer, and why. -/
inductive UnansweredFor : Except String Request → Option Narrator → String → Prop
  | unasked {question : Except String Request} :
      UnansweredFor question none "LLM runner not configured"
  | unbuilt {narrator : Narrator} {reason : String} :
      UnansweredFor (.error reason) (some narrator) reason
  | failed {request : Request} {narrator : Narrator} {reason : String} :
      (narrator.ask request.messages).2.2 = .error reason →
        UnansweredFor (.ok request) (some narrator) reason
  | unread {request : Request} {narrator : Narrator} {reply : RawText}
      {fault : Enrichment.ReplyFault} :
      (narrator.ask request.messages).2.2 = .ok reply →
        Enrichment.readReply reply = .error fault →
        UnansweredFor (.ok request) (some narrator) fault.message

theorem answered_or_unanswered
    (question : Except String Request) (narrator : Option Narrator) :
    (∃ fields, AnsweredWith question narrator fields) ∨
      ∃ reason, UnansweredFor question narrator reason := by
  cases narrator with
  | none =>
      exact Or.inr ⟨_, .unasked⟩
  | some narrator =>
      cases question with
      | error reason =>
          exact Or.inr ⟨reason, .unbuilt⟩
      | ok request =>
          cases said : (narrator.ask request.messages).2.2 with
          | error reason =>
              exact Or.inr ⟨reason, .failed said⟩
          | ok reply =>
              cases read : Enrichment.readReply reply with
              | error fault => exact Or.inr ⟨fault.message, .unread said read⟩
              | ok fields => exact Or.inl ⟨fields, .read said read⟩

end Prompt

namespace Report

open Prompt (AnsweredWith UnansweredFor)

variable {question : Except String Prompt.Request} {narrator : Option Narrator}

theorem prose_of_answeredWith
    (report : Report) {fields : List (RawText × Json)}
    (answered : AnsweredWith question narrator fields) :
    (report.proseBy question narrator).1 = Enrichment.ofReply fields := by
  cases answered with
  | @read request narrator reply _ said read =>
      have told : Narrator.fieldsFor (narrator.answerTo (.ok request)).2.2 = .ok fields := by
        rw [Narrator.fieldsFor, Narrator.answerTo, said]
        exact mapError_eq_ok_iff.mpr read
      simp only [proseBy, told]

theorem prose_of_unansweredFor
    (report : Report) {reason : String}
    (unanswered : UnansweredFor question narrator reason) :
    (report.proseBy question narrator).1 = report.basicEnrichment reason := by
  cases unanswered with
  | unasked =>
      rfl
  | unbuilt =>
      rfl
  | @failed request narrator _ said =>
      have untold : Narrator.fieldsFor (narrator.answerTo (.ok request)).2.2 = .error reason := by
        rw [Narrator.fieldsFor, Narrator.answerTo, said]
        rfl
      simp only [proseBy, untold]
  | @unread request narrator reply fault said read =>
      have untold :
          Narrator.fieldsFor (narrator.answerTo (.ok request)).2.2 = .error fault.message := by
        rw [Narrator.fieldsFor, Narrator.answerTo, said]
        exact mapError_eq_error_iff.mpr ⟨fault, read, rfl⟩
      simp only [proseBy, untold]

theorem isTold_prose
    (report : Report) {fields : List (RawText × Json)}
    (answered : AnsweredWith question narrator fields) :
    Enrichment.IsTold fields (report.proseBy question narrator).1 := by
  rw [report.prose_of_answeredWith answered]
  cases answered with
  | read _ read => exact Enrichment.isTold_ofReply (Enrichment.given_of_readReply read)

theorem isBasicFor_prose
    (report : Report) {reason : String}
    (unanswered : UnansweredFor question narrator reason) :
    report.IsBasicFor reason (report.proseBy question narrator).1 := by
  rw [report.prose_of_unansweredFor unanswered]
  exact report.isBasicFor_basicEnrichment reason

/-- The problems of a report that was composed are all of a severity that is told. -/
theorem known_of_composeResult
    {setting : Analysis.Setting} {path : String} {report : Report}
    (composed : Analysis.composeResult setting path = .ok report) :
    ∃ issues, report.issues = SortedIssues.ofList issues ∧
      ∀ issue ∈ issues, issue.severity.name ∈ severityWords := by
  obtain ⟨resolved, survey, graph, patterns, _, _, _, _, rfl⟩ :=
    Analysis.composeResult_eq_ok composed
  refine ⟨_, rfl, ?_⟩
  intro issue member
  have told : ∀ severity ∈ [Severity.high, .medium, .low], severity.name ∈ severityWords := by
    decide
  exact told _ (Issue.isDetectable_of_mem_detect member).severity

/-- Whatever the report, the question, whoever is asked and whatever comes back, there
is prose.  It is that of a model exactly when an object comes back, and then tells
what the object says; else it says why, describes every file and lists every problem.
A runner answers with what its conversation comes to, or the words of its failure;
and of a report that was composed no problem is left out. -/
theorem prose_is_always_given
    (report : Report) (question : Except String Prompt.Request) (narrator : Option Narrator) :
    ∃ enrichment calls,
      (∀ ε : Type,
        (report.narrateBy question narrator : Journal.Recorded ε _).outcome.1 =
          .ok (enrichment, calls)) ∧
      (enrichment.source = "llm" ∧ enrichment.isBasic = false ↔
        ∃ fields, AnsweredWith question narrator fields) ∧
      (∀ fields, AnsweredWith question narrator fields → enrichment.IsTold fields) ∧
      (enrichment.source = "fallback" ∧ enrichment.isBasic = true ↔
        ∃ reason, UnansweredFor question narrator reason) ∧
      (∀ reason, UnansweredFor question narrator reason →
        report.IsBasicFor reason enrichment) ∧
      (∀ exchange runner messages,
        ((Narrator.ofRunner exchange runner).ask messages).2.2 =
          (runner.chat messages true exchange).2.mapError Model.Failure.message) ∧
      ∀ setting path, Analysis.composeResult setting path = .ok report →
        ∃ issues, report.issues = SortedIssues.ofList issues ∧
          ∀ issue ∈ issues, issue.severity.name ∈ severityWords := by
  refine ⟨(report.proseBy question narrator).1, (report.proseBy question narrator).2, ?_, ?_,
    fun _ => report.isTold_prose, ?_, fun _ => report.isBasicFor_prose, fun _ _ _ => rfl,
    fun _ _ => known_of_composeResult⟩
  · intro ε
    exact (report.narrateBy_gives question narrator).outcome
  · constructor
    · rintro ⟨source, _⟩
      refine (Prompt.answered_or_unanswered question narrator).resolve_right ?_
      rintro ⟨reason, unanswered⟩
      rw [(report.isBasicFor_prose unanswered).source] at source
      exact absurd source (by decide)
    · rintro ⟨fields, answered⟩
      have told := report.isTold_prose answered
      exact ⟨told.source, told.isBasic⟩
  · constructor
    · rintro ⟨source, _⟩
      refine (Prompt.answered_or_unanswered question narrator).resolve_left ?_
      rintro ⟨fields, answered⟩
      rw [(report.isTold_prose answered).source] at source
      exact absurd source (by decide)
    · rintro ⟨reason, unanswered⟩
      have basic := report.isBasicFor_prose unanswered
      exact ⟨basic.source, basic.isBasic⟩

end Report

end ModuleAtlas
