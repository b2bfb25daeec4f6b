import ModuleAtlas.Disk.Surroundings
import ModuleAtlas.Journal.Note
import ModuleAtlas.Settings.Basic

/-!
# Prose for a report

The prose about a report: who is asked for it, and what takes its place when nobody answers.
-/

namespace ModuleAtlas

open Journal

/-- Somebody who can be asked for prose, with the calls and notes that asking makes. -/
structure Narrator where
  model : String
  ask : List Message → List Note × List Model.Call × Except String RawText

namespace Narrator

/-- The narrator that a runner is, given what comes back for its calls. -/
def ofRunner (exchange : Model.Call → Model.Reply) (runner : Model.Runner) : Narrator where
  model := runner.model
  ask messages :=
    let (calls, answer) := runner.chat messages true exchange
    let notes : List Note :=
      ((Model.nonEmpty runner.address).map fun address =>
        (⟨.debug, "llm",
          s!"POST {Model.endpoint address} (model {runner.model}, json_mode=True)", .main⟩ :
          Note)).toList
    (notes, calls, answer.mapError Model.Failure.message)

/-- The narrator who always says the same. -/
def ofReply (model : String) (reply : RawText) : Narrator where
  model := model
  ask _ := ([], [], .ok reply)

/-- What a narrator does about a question. One that could not be put together is not asked. -/
def answerTo (narrator : Narrator) :
    Except String Prompt.Request → List Note × List Model.Call × Except String RawText
  | .error reason => ([], [], .error reason)
  | .ok request => narrator.ask request.messages

/-- What a narrator says about a report: the fields of the answer, or why there are none. -/
def fieldsFor (answer : Except String RawText) : Except String (List (RawText × Json)) := do
  let reply ← answer
  (Enrichment.readReply reply).mapError Enrichment.ReplyFault.message

end Narrator

def Report.question (report : Report) : Except String Prompt.Request :=
  .ok (Prompt.build report Prompt.mostFiles none)

/-- The prose about a report by the answer to a question, with the calls that were made for it.
Without a question or an answer the prose that needs no model takes its place. -/
def Report.narrateBy {ε : Type} (report : Report) (question : Except String Prompt.Request)
    (narrator : Option Narrator) : Recorded ε (Enrichment × List Model.Call) :=
  match narrator with
  | none => return (report.basicEnrichment "LLM runner not configured", [])
  | some narrator => do
    let (notes, calls, answer) := narrator.answerTo question
    Recorded.takeNotes notes
    match Narrator.fieldsFor answer with
    | .error reason =>
      Recorded.takeNote .warning "enrichment"
        s!"Enrichment failed, using basic analysis: {reason}"
      return (report.basicEnrichment reason, calls)
    | .ok fields =>
      Recorded.takeNote .info "enrichment" s!"Enrichment completed with {narrator.model}"
      return (Enrichment.ofReply fields, calls)

/-- The prose about a report by the answer to the usual question. -/
def Report.narrate {ε : Type} (report : Report) (narrator : Option Narrator) :
    Recorded ε (Enrichment × List Model.Call) :=
  report.narrateBy report.question narrator

/-- A fault that keeps prose from being asked for. -/
inductive NarratorFault where
  | settings (fault : Settings.Fault)
  | address (fault : Net.UrlFault)
  deriving DecidableEq, Repr

def NarratorFault.message : NarratorFault → String
  | .settings fault => fault.message
  | .address fault => fault.message

/-- The narrator that the settings of a project name, if they name one that may be asked. -/
def Narrator.configured (surroundings : Surroundings) (exchange : Model.Call → Model.Reply)
    (root : String) : Recorded NarratorFault (Option Narrator) :=
  let unavailable (reason : String) : Recorded NarratorFault (Option Narrator) := do
    Recorded.takeNote .warning "orchestrator" s!"LLM runner unavailable: {reason}"
    return none
  match Settings.load surroundings.disk root with
  | .error fault =>
    if fault.isForgiven then unavailable fault.message else throw (.settings fault)
  | .ok settings =>
    if !settings.model.enabled then do
      Recorded.takeNote .info "orchestrator"
        "LLM enrichment disabled; set llm.enabled in .stackmap.yml to turn it on"
      return none
    else
      match Model.Runner.ofOptions surroundings.environment settings.model.options with
      | .ok runner => return some (Narrator.ofRunner exchange runner)
      | .error (.malformed fault) => throw (.address fault)
      | .error refusal => unavailable refusal.message

end ModuleAtlas
