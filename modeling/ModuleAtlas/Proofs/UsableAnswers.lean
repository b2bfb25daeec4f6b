import ModuleAtlas.Proofs.KeyedLists
import ModuleAtlas.Proofs.RecordedOutcomes
import ModuleAtlas.Proofs.SentRequests
import ModuleAtlas.Proofs.TrimmedTexts

/-!
# Usable answers

What a conversation comes to by the octets that come back for its call.  Octets
that hold no answer are a failure that is foreseen, with two exceptions: a number
with more digits than are read breaks the reader off, and an answer of blanks
alone is taken for a text and then trimmed to nothing.
-/

namespace ModuleAtlas.Model

/-! ## Readings of octets -/

/-- What reading a text as a document comes to, for octets that are a text. -/
def ReadsAs (octets : List UInt8) (reading : Except Json.Fault Json) : Prop :=
  ∃ text, Text.Utf8.decode octets = .ok text ∧ Json.read text = reading

theorem ReadsAs.eq
    {octets : List UInt8} {reading other : Except Json.Fault Json}
    (reads : ReadsAs octets reading) (again : ReadsAs octets other) :
    reading = other := by
  obtain ⟨text, decoded, rfl⟩ := reads
  obtain ⟨same, decodedAgain, rfl⟩ := again
  rw [decoded, Except.ok.injEq] at decodedAgain
  rw [decodedAgain]

theorem not_readsAs_of_error
    {octets : List UInt8} {fault : Text.Utf8.Fault}
    (undecodable : Text.Utf8.decode octets = .error fault) (reading : Except Json.Fault Json) :
    ¬ReadsAs octets reading := by
  rintro ⟨text, decoded, _⟩
  rw [undecodable] at decoded
  cases decoded

/-- The octets hold a number with more digits than are read. -/
def HasLongNumber (octets : List UInt8) : Prop :=
  ∃ digits, ReadsAs octets (.error (.digitLimit digits))

/-! ## Completions -/

/-- The text of the first choice: the content of its message, or else the text
beside it. -/
inductive Completes (fields : List (RawText × Json)) : RawText → Prop
  | message {choice message : List (RawText × Json)} {rest : List Json} {content : RawText} :
      fields.lookup (.proper "choices") = some (.array (.object choice :: rest)) →
      choice.lookup (.proper "message") = some (.object message) →
      message.lookup (.proper "content") = some (.string content) →
      Completes fields content
  | text {choice : List (RawText × Json)} {rest : List Json} {text : RawText} :
      fields.lookup (.proper "choices") = some (.array (.object choice :: rest)) →
      (∀ message content, choice.lookup (.proper "message") = some (.object message) →
        message.lookup (.proper "content") ≠ some (.string content)) →
      choice.lookup (.proper "text") = some (.string text) →
      Completes fields text

/-- The octets are an object, and this is the text of its first choice. -/
def Says (octets : List UInt8) (completion : RawText) : Prop :=
  ∃ fields, ReadsAs octets (.ok (.object fields)) ∧ Completes fields completion

/-- The content of the message of a choice. -/
theorem content_eq_some_iff {choice : List (RawText × Json)} {content : RawText} :
    (((choice.lookup (.proper "message")).bind (Json.field? "content")).bind Json.string?) =
        some content ↔
      ∃ message, choice.lookup (.proper "message") = some (.object message) ∧
        message.lookup (.proper "content") = some (.string content) := by
  simp only [Option.bind_eq_some_iff, Json.string?_eq_some_iff, Json.field?_eq_some_iff]
  constructor
  · rintro ⟨_, ⟨_, named, message, rfl, found⟩, rfl⟩
    exact ⟨message, named, found⟩
  · rintro ⟨message, named, found⟩
    exact ⟨_, ⟨_, named, message, rfl, found⟩, rfl⟩

theorem text_eq_some_iff {choice : List (RawText × Json)} {text : RawText} :
    ((choice.lookup (.proper "text")).bind Json.string?) = some text ↔
      choice.lookup (.proper "text") = some (.string text) := by
  simp only [Option.bind_eq_some_iff, Json.string?_eq_some_iff]
  constructor
  · rintro ⟨_, named, rfl⟩
    exact named
  · intro named
    exact ⟨_, named, rfl⟩

theorem answerText_of_completes
    {fields : List (RawText × Json)} {completion : RawText}
    (completes : Completes fields completion) :
    answerText fields = completion := by
  cases completes with
  | message listed named found =>
      have content := content_eq_some_iff.mpr ⟨_, named, found⟩
      simp only [answerText, listed, Option.bind_some, Json.array?, content, Option.some_or,
        Option.getD_some]
  | @text choice _ _ listed silent found =>
      have content :
          ((choice.lookup (.proper "message")).bind (Json.field? "content")).bind Json.string? =
            none := by
        rw [Option.eq_none_iff_forall_ne_some]
        intro content told
        obtain ⟨message, named, given⟩ := content_eq_some_iff.mp told
        exact silent message content named given
      have beside := text_eq_some_iff.mpr found
      simp only [answerText, listed, Option.bind_some, Json.array?, content, beside,
        Option.none_or, Option.getD_some]

/-- A text that is not empty is that of the first choice. -/
theorem completes_answerText
    {fields : List (RawText × Json)} (spoken : answerText fields ≠ "") :
    Completes fields (answerText fields) := by
  unfold answerText at spoken ⊢
  split
  · next choice rest listed =>
    obtain ⟨_, found, array⟩ := Option.bind_eq_some_iff.mp listed
    obtain rfl := (Json.array?_eq_some_iff _ _).mp array
    dsimp only
    cases told :
        (((choice.lookup (.proper "message")).bind (Json.field? "content")).bind Json.string?) with
    | some content =>
        obtain ⟨message, named, given⟩ := content_eq_some_iff.mp told
        exact .message found named given
    | none =>
        have silent : ∀ message content, choice.lookup (.proper "message") = some (.object message) →
            message.lookup (.proper "content") ≠ some (.string content) := by
          intro message content named given
          have content := content_eq_some_iff.mpr ⟨message, named, given⟩
          rw [told] at content
          cases content
        cases beside : ((choice.lookup (.proper "text")).bind Json.string?) with
        | some text =>
            exact .text found silent (text_eq_some_iff.mp beside)
        | none =>
            rw [listed] at spoken
            simp [told, beside] at spoken
  · next other =>
    refine absurd ?_ spoken
    split
    · next choice rest listed => exact absurd listed (other choice rest)
    · rfl

/-- A choice has one text. -/
theorem Completes.eq
    {fields : List (RawText × Json)} {completion other : RawText}
    (completes : Completes fields completion) (again : Completes fields other) :
    completion = other := by
  rw [← answerText_of_completes completes, ← answerText_of_completes again]

theorem Says.eq
    {octets : List UInt8} {completion other : RawText}
    (told : Says octets completion) (again : Says octets other) :
    completion = other := by
  obtain ⟨fields, reads, completes⟩ := told
  obtain ⟨same, readsAgain, completesAgain⟩ := again
  have equal := reads.eq readsAgain
  cases equal
  exact completes.eq completesAgain

/-! ## Outcomes -/

/-- What an answer comes to. -/
inductive ComesTo (octets : List UInt8) : Except Failure RawText → Prop
  | undecodable {fault : Text.Utf8.Fault} :
      Text.Utf8.decode octets = .error fault →
      ComesTo octets (.error .invalidAnswer)
  | ungrammatical {complaint : Json.Complaint} {index : Nat} :
      ReadsAs octets (.error (.grammar complaint index)) →
      ComesTo octets (.error .invalidAnswer)
  | nested {container : String} :
      ReadsAs octets (.error (.nesting container)) →
      ComesTo octets (.error (.readerLimit (.nesting container)))
  | longNumber {digits : Nat} :
      ReadsAs octets (.error (.digitLimit digits)) →
      ComesTo octets (.error (.readerLimit (.digitLimit digits)))
  | noObject {document : Json} :
      ReadsAs octets (.ok document) →
      document.object? = none →
      ComesTo octets (.error .unexpectedAnswer)
  | silent {fields : List (RawText × Json)} :
      ReadsAs octets (.ok (.object fields)) →
      (∀ completion, Completes fields completion → completion = "") →
      ComesTo octets (.error .emptyAnswer)
  | spoken {completion : RawText} :
      Says octets completion →
      completion ≠ "" →
      ComesTo octets (.ok completion.trim)

theorem comesTo_answer (asked : String) (call : Call) (octets : List UInt8) :
    ComesTo octets (answer asked call (.answered octets)) := by
  unfold answer readAnswer
  dsimp only
  cases decoded : Text.Utf8.decode octets with
  | error fault =>
      exact .undecodable decoded
  | ok text =>
      have reads : ReadsAs octets (Json.read text) := ⟨text, decoded, rfl⟩
      dsimp only
      cases read : Json.read text with
      | error fault =>
          rw [read] at reads
          cases fault with
          | grammar complaint index => exact .ungrammatical reads
          | digitLimit digits => exact .longNumber reads
          | nesting container => exact .nested reads
      | ok document =>
          rw [read] at reads
          cases document with
          | object fields =>
              by_cases empty : answerText fields = ""
              · have silent : ComesTo octets (.error .emptyAnswer) := by
                  refine .silent reads ?_
                  intro completion completes
                  rw [← answerText_of_completes completes, empty]
                simpa [bind, Except.bind, empty, throw, throwThe, MonadExceptOf.throw] using silent
              · have spoken : ComesTo octets (.ok ((answerText fields).trim)) :=
                  .spoken ⟨fields, reads, completes_answerText empty⟩ empty
                simpa [bind, Except.bind, empty, pure, Except.pure] using spoken
          | _ => exact .noObject reads rfl

/-- A text that can be used: it is not empty, and no blanks are around it. -/
structure IsUsable (text : RawText) : Prop where
  nonempty : text ≠ ""
  trimmed : text.IsTrimmed

/-- Whether a failure is one that a conversation foresees.  Running out of depth
while a document is read is among them. -/
def Failure.isForeseen : Failure → Bool
  | .unwritable => false
  | .unknownScheme _ => false
  | .malformed _ => false
  | .brokenOff _ => false
  | .readerLimit (.digitLimit _) => false
  | _ => true

/-- A conversation gives a text that can be used, or a failure that is foreseen. -/
def IsProper : Except Failure RawText → Prop
  | .ok text => IsUsable text
  | .error failure => failure.isForeseen = true

/-- The first choice is blanks alone. -/
def SaysOnlyBlanks (octets : List UInt8) : Prop :=
  ∃ completion, Says octets completion ∧ completion ≠ "" ∧ completion.isAllBlank = true

theorem ReadsAs.not_hasLongNumber
    {octets : List UInt8} {reading : Except Json.Fault Json} (reads : ReadsAs octets reading)
    (other : ∀ digits, .error (.digitLimit digits) ≠ reading) :
    ¬HasLongNumber octets := by
  rintro ⟨digits, again⟩
  exact other digits (again.eq reads)

theorem ReadsAs.not_saysOnlyBlanks
    {octets : List UInt8} {reading : Except Json.Fault Json} (reads : ReadsAs octets reading)
    (other : ∀ fields, .ok (.object fields) ≠ reading) :
    ¬SaysOnlyBlanks octets := by
  rintro ⟨_, ⟨fields, again, _⟩, _⟩
  exact other fields (again.eq reads)

/-- A text without blanks around it can be used unless it was all blank. -/
theorem isUsable_trim_iff {text : RawText} :
    IsUsable text.trim ↔ text.isAllBlank = false := by
  rw [← Bool.not_eq_true, ← RawText.trim_eq_empty_iff]
  exact ⟨fun usable => usable.nonempty, fun nonempty => ⟨nonempty, text.isTrimmed_trim⟩⟩

theorem ComesTo.isProper_iff
    {octets : List UInt8} {outcome : Except Failure RawText} (comes : ComesTo octets outcome) :
    IsProper outcome ↔ ¬HasLongNumber octets ∧ ¬SaysOnlyBlanks octets := by
  cases comes with
  | undecodable undecodable =>
      refine iff_of_true rfl ⟨?_, ?_⟩
      · rintro ⟨digits, reads⟩
        exact not_readsAs_of_error undecodable _ reads
      · rintro ⟨_, ⟨fields, reads, _⟩, _⟩
        exact not_readsAs_of_error undecodable _ reads
  | ungrammatical reads =>
      exact iff_of_true rfl ⟨reads.not_hasLongNumber (by simp), reads.not_saysOnlyBlanks (by simp)⟩
  | nested reads =>
      exact iff_of_true rfl ⟨reads.not_hasLongNumber (by simp), reads.not_saysOnlyBlanks (by simp)⟩
  | longNumber reads =>
      exact iff_of_false Bool.false_ne_true fun clear => clear.1 ⟨_, reads⟩
  | noObject reads other =>
      refine iff_of_true rfl ⟨reads.not_hasLongNumber (by simp), reads.not_saysOnlyBlanks ?_⟩
      rintro fields same
      cases same
      cases other
  | silent reads quiet =>
      refine iff_of_true rfl ⟨reads.not_hasLongNumber (by simp), ?_⟩
      rintro ⟨completion, ⟨fields, again, completes⟩, nonempty, _⟩
      cases again.eq reads
      exact nonempty (quiet completion completes)
  | @spoken completion told nonempty =>
      have clear : ¬HasLongNumber octets := by
        obtain ⟨fields, reads, _⟩ := told
        exact reads.not_hasLongNumber (by simp)
      rw [and_iff_right clear]
      change IsUsable completion.trim ↔ _
      rw [isUsable_trim_iff, ← Bool.not_eq_true, not_iff_not]
      constructor
      · intro blank
        exact ⟨completion, told, nonempty, blank⟩
      · rintro ⟨other, again, _, blank⟩
        rwa [told.eq again]

theorem ComesTo.eq_ok_iff
    {octets : List UInt8} {outcome : Except Failure RawText} (comes : ComesTo octets outcome)
    (text : RawText) :
    outcome = .ok text ↔
      ∃ completion, Says octets completion ∧ completion ≠ "" ∧ text = completion.trim := by
  constructor
  · rintro rfl
    cases comes with
    | spoken told nonempty => exact ⟨_, told, nonempty, rfl⟩
  · rintro ⟨completion, ⟨fields, reads, completes⟩, nonempty, rfl⟩
    cases comes with
    | undecodable undecodable => exact absurd reads (not_readsAs_of_error undecodable _)
    | ungrammatical other => cases reads.eq other
    | nested other => cases reads.eq other
    | longNumber other => cases reads.eq other
    | noObject other noFields =>
        cases reads.eq other
        cases noFields
    | silent other quiet =>
        cases reads.eq other
        exact absurd (quiet completion completes) nonempty
    | spoken told _ =>
        rw [told.eq ⟨fields, reads, completes⟩]

section

variable {runner : Runner} {address : String}

/-- Where a request can be put together, what comes back for it decides. -/
theorem Runner.exists_chat_eq_answer
    (given : nonEmpty runner.address = some address) (able : runner.CanAsk address)
    (messages : List Message) (wantsObject : Bool) :
    ∃ call, ∀ exchange, (runner.chat messages wantsObject exchange).2 =
      answer (endpoint (runner.address.getD "")) call (exchange call) := by
  obtain ⟨call, called, _⟩ :=
    (@Runner.exists_call_iff runner messages wantsObject _).mpr ⟨address, given, able, rfl⟩
  refine ⟨call, fun exchange => ?_⟩
  rw [chat, called]

/-- Where none can be put together, the failure is not foreseen. -/
theorem Runner.exists_chat_eq_error
    (given : nonEmpty runner.address = some address) (unable : ¬runner.CanAsk address)
    (messages : List Message) (wantsObject : Bool) :
    ∃ failure, failure.isForeseen = false ∧
      ∀ exchange, (runner.chat messages wantsObject exchange).2 = .error failure := by
  have together := Runner.putsTogether_call given messages wantsObject
  unfold chat
  generalize runner.call messages wantsObject = outcome at together
  cases together with
  | unwritable _ => exact ⟨_, rfl, fun _ => rfl⟩
  | unknownScheme _ => exact ⟨_, rfl, fun _ => rfl⟩
  | malformed _ => exact ⟨_, rfl, fun _ => rfl⟩
  | sent able _ => exact absurd able unable

end

/-- When octets come back whole, a runner with an address gives a text that can be
used or a failure that is foreseen, unless the request cannot be put together, a
number in the octets is too long to be read, or the first choice is blanks alone.
It gives a text exactly for a first choice that is not empty, without the blanks
around it, and so an empty one exactly for blanks alone.  Octets that come with a
refusal are not looked into. -/
theorem answer_is_proper_iff
    {runner : Runner} {address : String} (given : nonEmpty runner.address = some address)
    (messages : List Message) (wantsObject : Bool) (octets : List UInt8) :
    (IsProper (runner.chat messages wantsObject fun _ => .answered octets).2 ↔
        runner.CanAsk address ∧ ¬HasLongNumber octets ∧ ¬SaysOnlyBlanks octets) ∧
      (∀ text, (runner.chat messages wantsObject fun _ => .answered octets).2 = .ok text ↔
        runner.CanAsk address ∧
          ∃ completion, Says octets completion ∧ completion ≠ "" ∧ text = completion.trim) ∧
      ((runner.chat messages wantsObject fun _ => .answered octets).2 = .ok "" ↔
        runner.CanAsk address ∧ SaysOnlyBlanks octets) ∧
      ∀ status reason,
        IsProper (runner.chat messages wantsObject fun _ => .refused status reason octets).2 ↔
          runner.CanAsk address := by
  by_cases able : runner.CanAsk address
  · obtain ⟨call, answered⟩ := Runner.exists_chat_eq_answer given able messages wantsObject
    have comes := comesTo_answer (endpoint (runner.address.getD "")) call octets
    simp only [answered, able, true_and]
    refine ⟨comes.isProper_iff, comes.eq_ok_iff, ?_, fun _ _ => iff_of_true rfl trivial⟩
    rw [comes.eq_ok_iff]
    simp only [SaysOnlyBlanks, @eq_comm _ _ (RawText.trim _), RawText.trim_eq_empty_iff]
  · obtain ⟨failure, unforeseen, failed⟩ :=
      Runner.exists_chat_eq_error given able messages wantsObject
    have improper : ¬IsProper (.error failure) := by
      rw [IsProper, unforeseen]
      exact Bool.false_ne_true
    simp [failed, able, improper]

/-- A runner at the usual address that leaves all choices to the model. -/
def usualRunner : Runner :=
  ⟨usualModel, some usualAddress, none, none, none, none⟩

/-- An answer whose first choice is one blank. -/
def blankAnswer : List UInt8 :=
  Text.Utf8.encode "\x7b\"choices\": [\x7b\"text\": \" \"\x7d]\x7d"

theorem answer_is_proper_blankAnswer :
    nonEmpty usualRunner.address = some usualAddress ∧ usualRunner.CanAsk usualAddress ∧
      SaysOnlyBlanks blankAnswer ∧
      (usualRunner.chat [] false fun _ => .answered blankAnswer).2 = .ok "" ∧
      ¬IsProper (usualRunner.chat [] false fun _ => .answered blankAnswer).2 := by
  have given : nonEmpty usualRunner.address = some usualAddress := by decide
  have computed :
      (usualRunner.chat [] false fun _ => .answered blankAnswer).2.toOption =
        some (.proper "") := by
    decide +kernel
  rw [toOption_eq_some_iff] at computed
  obtain ⟨proper, _, empty, _⟩ := answer_is_proper_iff given [] false blankAnswer
  obtain ⟨able, blanks⟩ := empty.mp computed
  refine ⟨given, able, blanks, computed, ?_⟩
  rw [proper]
  exact fun clear => clear.2.2 blanks

end ModuleAtlas.Model
