import ModuleAtlas.Model.Runner
import ModuleAtlas.Proofs.Authorities
import ModuleAtlas.Proofs.DocumentParts

/-!
# Requests that are put together

Before a model is asked, a request to it is put together.  That fails where a
number in it has more digits than are written, and where the address has no
scheme or cannot be taken apart; nothing is sent then.
-/

namespace ModuleAtlas.Model

/-- The whole numbers among some choices have no more digits than are written. -/
def AreShort (choices : List (Option Quantity)) : Prop :=
  ∀ value : Int, some (.whole value) ∈ choices → value.natAbs < Nat.pow 10 Reading.mostDigits

theorem areShort_cons_iff {choice : Option Quantity} {others : List (Option Quantity)} :
    AreShort (choice :: others) ↔
      (∀ quantity, choice = some quantity → quantity.toJson.isWritable = true) ∧
        AreShort others := by
  have own :
      (∀ value : Int, choice = some (.whole value) →
          value.natAbs < Nat.pow 10 Reading.mostDigits) ↔
        ∀ quantity, choice = some quantity → quantity.toJson.isWritable = true := by
    constructor
    · intro short quantity chosen
      cases quantity with
      | whole value =>
          rw [Quantity.toJson, Json.isWritable]
          exact decide_eq_true (short value chosen)
      | real value => rfl
    · intro writable value chosen
      have written := writable _ chosen
      rw [Quantity.toJson, Json.isWritable] at written
      exact of_decide_eq_true written
  rw [← own]
  simp only [AreShort, List.mem_cons, or_imp, forall_and, @eq_comm _ _ choice]

theorem isWritable_messages (messages : List Message) :
    (Json.ofList Message.toJson messages).isWritable = true := by
  rw [Json.ofList, Json.isWritable_array_iff]
  intro document member
  obtain ⟨message, _, rfl⟩ := List.mem_map.mp member
  rfl

/-- What is sent can be written when the whole numbers in it are short. -/
theorem Runner.isWritable_payload_iff
    {runner : Runner} {messages : List Message} {wantsObject : Bool} :
    (runner.payload messages wantsObject).isWritable = true ↔
      AreShort [runner.temperature, runner.maxTokens] := by
  have optional (key : RawText) (choice : Option Quantity) :
      (∀ field ∈ (choice.map fun value => (key, value.toJson)).toList,
          field.2.isWritable = true) ↔
        ∀ quantity, choice = some quantity → quantity.toJson.isWritable = true := by
    cases choice with
    | none => simp
    | some quantity => simp
  have format :
      ∀ wanted ∈ if wantsObject then
          [((.proper "response_format", .object [(.proper "type", .string "json_object")]) :
            RawText × Json)] else [],
        wanted.2.isWritable = true := by
    intro wanted member
    split at member
    · rw [List.mem_singleton.mp member]
      rfl
    · cases member
  have nothing : AreShort [] := fun _ member => absurd member List.not_mem_nil
  have model : (Json.string runner.model).isWritable = true := rfl
  rw [payload, Json.isWritable_object_iff]
  simp only [List.forall_mem_append, optional, isWritable_messages, areShort_cons_iff,
    nothing, model, List.forall_mem_cons, List.not_mem_nil, false_implies, implies_true, true_and,
    and_true]
  exact and_iff_left format

/-- A runner can put a request to an address together. -/
structure Runner.CanAsk (runner : Runner) (address : String) : Prop where
  short : AreShort [runner.temperature, runner.maxTokens]
  scheme : hasScheme (unwrap (endpoint address)) = true
  readable : Net.IsReadable (Net.netloc (unwrap (endpoint address)).toList)

/-- What putting a request together comes to. -/
inductive Runner.PutsTogether (runner : Runner) (address : String) : Except Failure Call → Prop
  | unwritable :
      ¬AreShort [runner.temperature, runner.maxTokens] →
      PutsTogether runner address (.error .unwritable)
  | unknownScheme :
      hasScheme (unwrap (endpoint address)) = false →
      PutsTogether runner address (.error (.unknownScheme (unwrap (endpoint address))))
  | malformed {fault : Net.UrlFault} :
      ¬Net.IsReadable (Net.netloc (unwrap (endpoint address)).toList) →
      PutsTogether runner address (.error (.malformed fault))
  | sent {call : Call} :
      runner.CanAsk address →
      call.url = unwrap (endpoint address) →
      PutsTogether runner address (.ok call)

theorem Runner.putsTogether_call
    {runner : Runner} {address : String} (given : nonEmpty runner.address = some address)
    (messages : List Message) (wantsObject : Bool) :
    runner.PutsTogether address (runner.call messages wantsObject) := by
  unfold Runner.call
  rw [given]
  dsimp only
  cases writable : (runner.payload messages wantsObject).isWritable with
  | false =>
      refine .unwritable fun short => ?_
      rw [isWritable_payload_iff.mpr short] at writable
      cases writable
  | true =>
      have short := isWritable_payload_iff.mp writable
      cases scheme : hasScheme (unwrap (endpoint address)) with
      | false => exact .unknownScheme scheme
      | true =>
          cases read : Net.host? (unwrap (endpoint address)) with
          | error fault =>
              refine .malformed fun readable => ?_
              rw [Net.host?_eq_ok_iff.mpr ⟨readable, rfl⟩] at read
              cases read
          | ok host => exact .sent ⟨short, scheme, (Net.host?_eq_ok_iff.mp read).1⟩ rfl

theorem nonEmpty_eq_some_iff {value : Option String} {text : String} :
    nonEmpty value = some text ↔ value = some text ∧ text ≠ "" := by
  unfold nonEmpty
  rw [Option.filter_eq_some_iff]
  simp

/-- A runner calls exactly if it has an address to which it can put a request
together. -/
theorem Runner.exists_call_iff
    {runner : Runner} {messages : List Message} {wantsObject : Bool} {url : String} :
    (∃ call, runner.call messages wantsObject = .ok call ∧ call.url = url) ↔
      ∃ address, nonEmpty runner.address = some address ∧ runner.CanAsk address ∧
        url = unwrap (endpoint address) := by
  cases given : nonEmpty runner.address with
  | none => simp [Runner.call, given, throw, throwThe, MonadExceptOf.throw]
  | some address =>
      have together := Runner.putsTogether_call given messages wantsObject
      generalize runner.call messages wantsObject = outcome at together
      simp only [Option.some.injEq, exists_eq_left']
      cases together with
      | unwritable long =>
          exact iff_of_false (by simp) fun asks => long asks.1.short
      | unknownScheme missing =>
          exact iff_of_false (by simp) fun asks => by simp [asks.1.scheme] at missing
      | malformed unreadable =>
          exact iff_of_false (by simp) fun asks => unreadable asks.1.readable
      | sent able same =>
          simp [able, same, eq_comm]

end ModuleAtlas.Model
