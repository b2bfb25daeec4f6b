import ModuleAtlas.Proofs.RecordedOutcomes
import ModuleAtlas.Proofs.RequestedHosts
import ModuleAtlas.Proofs.SentRequests

/-!
# Calls that leave the machine

A call to a model goes to a host that is not this machine exactly when the
address slips through the check: something is hidden in front of it, or the
check reads another host from the part that the request asks.  From a plain
part both read the same host.
-/

namespace ModuleAtlas

/-! ## Plain text in lower case -/

namespace Text

/-- Only characters of the basic set. -/
def IsBasic (characters : List Char) : Prop :=
  ∀ character ∈ characters, character.toNat < 128

theorem lowerChar_basic
    {character : Char} (basic : character.toNat < 128) :
    (lowerChar character).toNat < 128 ∧
      lowerChar (lowerChar character) = lowerChar character := by
  have checked : ∀ point : Fin 128,
      (lowerChar (Char.ofNat point)).toNat < 128 ∧
        lowerChar (lowerChar (Char.ofNat point)) = lowerChar (Char.ofNat point) := by
    decide +kernel
  have own := checked ⟨character.toNat, basic⟩
  rwa [Char.ofNat_toNat] at own

/-- Basic text is put in lower case character by character. -/
theorem lowerFrom_basic
    {characters : List Char} (basic : IsBasic characters) :
    ∀ before, lowerFrom before characters = characters.map lowerChar := by
  induction characters with
  | nil =>
      intro before
      rfl
  | cons first others inductionHypothesis =>
      intro before
      have firstBasic : first.toNat < 128 := basic first List.mem_cons_self
      have othersBasic : IsBasic others := fun character member =>
        basic character (List.mem_cons_of_mem first member)
      have noDotted : first ≠ 'İ' := by
        rintro rfl
        exact absurd firstBasic (by decide)
      have noSigma : first ≠ 'Σ' := by
        rintro rfl
        exact absurd firstBasic (by decide)
      rw [lowerFrom, if_neg noDotted, if_neg noSigma,
        inductionHypothesis othersBasic (first :: before), List.map_cons]

theorem toList_lower_basic
    {characters : List Char} (basic : IsBasic characters) :
    (lower (String.ofList characters)).toList = characters.map lowerChar := by
  rw [lower, String.toList_ofList, String.toList_ofList, lowerFrom_basic basic]

/-- Basic text of which a part is in lower case already has the same lower case. -/
theorem lower_lower_append
    {name scope : List Char} (basic : IsBasic (name ++ scope)) :
    lower (lower (String.ofList name) ++ String.ofList scope) =
      lower (String.ofList (name ++ scope)) := by
  have nameBasic : IsBasic name := fun character member =>
    basic character (List.mem_append_left scope member)
  have lowered :
      lower (String.ofList name) ++ String.ofList scope =
        String.ofList (name.map lowerChar ++ scope) := by
    apply String.toList_injective
    rw [String.toList_append, toList_lower_basic nameBasic, String.toList_ofList,
      String.toList_ofList]
  have loweredBasic : IsBasic (name.map lowerChar ++ scope) := by
    intro character member
    rcases List.mem_append.mp member with inName | inScope
    · obtain ⟨other, otherMember, rfl⟩ := List.mem_map.mp inName
      exact (lowerChar_basic (nameBasic other otherMember)).1
    · exact basic character (List.mem_append_right name inScope)
  apply String.toList_injective
  rw [lowered, toList_lower_basic basic, toList_lower_basic loweredBasic, List.map_append,
    List.map_append, List.map_map]
  congr 1
  apply List.map_congr_left
  intro character member
  exact (lowerChar_basic (nameBasic character member)).2

end Text

namespace Net

open Text (IsBasic)

/-- Lower case that leaves a scope as it is changes nothing for a basic host. -/
theorem isLocalHost_lowerHost
    {characters : List Char} (basic : IsBasic characters) :
    isLocalHost (lowerHost characters) = isLocalHost (String.ofList characters) := by
  have sameText :
      Text.lower (lowerHost characters) = Text.lower (String.ofList characters) := by
    obtain ⟨scope, shape⟩ := List.takeWhile_prefix (· != '%') (l := characters)
    unfold lowerHost
    dsimp only
    generalize characters.takeWhile (· != '%') = name at shape
    subst shape
    rw [List.drop_left]
    exact Text.lower_lower_append basic
  unfold isLocalHost
  rw [sameText]

/-! ## Parts that both read alike -/

/-- A part that both readers take for the same host: a name of basic characters
that can be seen, without users and brackets, and a port. -/
structure IsPlainPart (name port : List Char) : Prop where
  nonempty : name ≠ []
  noColon : ':' ∉ name
  isPort : port = [] ∨ ∃ digits, port = ':' :: digits ∧ ':' ∉ digits
  visible : ∀ character ∈ name ++ port,
    32 < character.toNat ∧ character.toNat < 128
  unmarked : ∀ character ∈ name ++ port,
    character ≠ '@' ∧ character ≠ '[' ∧ character ≠ ']'

/-- The port begins with the first colon. -/
theorem IsPlainPart.takeWhile_ne_colon
    {name port : List Char} (plain : IsPlainPart name port) :
    (name ++ port).takeWhile (· != ':') = name := by
  apply takeWhile_append_of_stop
  · intro character member
    have different : character ≠ ':' := fun same => plain.noColon (same ▸ member)
    simpa using different
  · intro character first
    rcases plain.isPort with rfl | ⟨digits, rfl, _⟩
    · cases first
    · cases first
      rfl

theorem IsPlainPart.hostOf_eq
    {name port : List Char} (plain : IsPlainPart name port) :
    hostOf (name ++ port) = name := by
  have noUser :
      ((name ++ port).reverse.takeWhile (· != '@')).reverse = name ++ port := by
    rw [List.takeWhile_eq_self_iff.mpr, List.reverse_reverse]
    intro character member
    simpa using (plain.unmarked character (List.mem_reverse.mp member)).1
  have noBracket : '[' ∉ name ++ port := fun member =>
    (plain.unmarked '[' member).2.1 rfl
  unfold hostOf
  rw [noUser]
  simp only [List.contains_eq_mem, noBracket, decide_false, Bool.false_eq_true, if_false]
  exact plain.takeWhile_ne_colon

/-- The port begins with the last colon, too. -/
theorem IsPlainPart.withoutPort_eq
    {name port : List Char} (plain : IsPlainPart name port) :
    withoutPort (name ++ port) = name := by
  have passed : ∀ characters : List Char, ':' ∉ characters →
      (∀ character ∈ characters, character ∈ name ++ port) →
        ∀ character ∈ characters.reverse,
          (character != ':' && character != ']') = true := by
    intro characters noColon inside character member
    have own := List.mem_reverse.mp member
    have noBracket := (plain.unmarked character (inside character own)).2.2
    have different : character ≠ ':' := fun same => noColon (same ▸ own)
    simp [different, noBracket]
  unfold withoutPort
  rcases plain.isPort with rfl | ⟨digits, rfl, noColon⟩
  · have all := passed name plain.noColon fun character member =>
      List.mem_append_left [] member
    rw [List.append_nil, List.dropWhile_eq_nil_iff.mpr all]
  · have all := passed digits noColon fun character member =>
      List.mem_append_right name (List.mem_cons_of_mem ':' member)
    rw [List.reverse_append, List.reverse_cons, List.append_assoc,
      List.dropWhile_append_of_pos all]
    simp

theorem IsPlainPart.dialledHost_eq
    {name port : List Char} (plain : IsPlainPart name port) :
    dialledHost (name ++ port) = name := by
  have noBracket : name.head? ≠ some '[' := by
    intro first
    have member : '[' ∈ name := List.mem_of_mem_head? first
    exact (plain.unmarked '[' (List.mem_append_left port member)).2.1 rfl
  unfold dialledHost
  rw [plain.withoutPort_eq]
  exact if_neg fun bracketed => noBracket bracketed.1

theorem IsPlainPart.filter_isKept
    {name port : List Char} (plain : IsPlainPart name port) :
    (name ++ port).filter isKept = name ++ port := by
  rw [List.filter_eq_self]
  intro character member
  apply isKept_of_not_isControlOrSpace
  have bounds := plain.visible character member
  simp only [isControlOrSpace, decide_eq_false_iff_not]
  omega

/-- The check accepts a plain part only if the host that a request to it goes to
is this machine. -/
theorem IsPlainPart.isLocalHost_of_passes
    {name port : List Char} (plain : IsPlainPart name port)
    (passes : Passes ((name ++ port).filter isKept)) :
    isLocalHost (String.ofList (dialledHost (name ++ port))) = true := by
  have basic : IsBasic name := fun character member =>
    (plain.visible character (List.mem_append_left port member)).2
  have named : name.isEmpty = false := by
    simpa using plain.nonempty
  rw [plain.filter_isKept] at passes
  rw [plain.dialledHost_eq, ← isLocalHost_lowerHost basic]
  apply passes.2
  unfold readHost
  rw [plain.hostOf_eq, named]
  rfl

/-! ## Addresses that slip through -/

/-- The characters of the address that is checked and kept. -/
def checkedAddress (url : String) : List Char :=
  (bareAddress url).toList

/-- The check lets requests to an address go to a host: the part that the request
asks can be taken apart, and something is hidden in front of the address, or that
part passes the check. -/
def LetsThrough (url host : String) : Prop :=
  ∃ asked,
    Asks (withoutFront (checkedAddress url)) asked ∧
      host = String.ofList (dialledHost asked) ∧
      IsReadable (asked.filter isKept) ∧
      (HasHiddenFront (checkedAddress url) ∨ Passes (asked.filter isKept))

theorem getLast?_checkedAddress (url : String) :
    (checkedAddress url).getLast? ≠ some '/' := by
  unfold checkedAddress bareAddress Text.dropEndWhile
  rw [String.toList_ofList, List.getLast?_reverse]
  intro first
  have stopped := List.head?_dropWhile_not (· == '/') url.toList.reverse
  rw [first] at stopped
  cases stopped

theorem withoutFront_suffix (address : List Char) : withoutFront address <:+ address := by
  unfold withoutFront
  dsimp only
  split
  · exact ((List.dropWhile_suffix _).trans (List.drop_suffix _ _)).trans (List.dropWhile_suffix _)
  · exact List.dropWhile_suffix _

theorem passes_nil : Passes [] := by
  refine ⟨⟨⟨by simp, ?_⟩, ?_⟩, ?_⟩
  · intro member
    cases member
  · intro character member
    cases member
  · intro host read
    cases read

/-- The check lets an address pass exactly when something is hidden in front of
it or the part that the request asks passes. -/
theorem passes_seenPart_iff
    {url : String} {asked : List Char}
    (asks : Asks (withoutFront (checkedAddress url)) asked) :
    Passes (seenPart url) ↔
      HasHiddenFront (checkedAddress url) ∨ Passes (asked.filter isKept) := by
  change Passes (netloc (checkedAddress url)) ↔ _
  by_cases hidden : HasHiddenFront (checkedAddress url)
  · rw [netloc_of_hasHiddenFront hidden asks]
    exact iff_of_true passes_nil (Or.inl hidden)
  · rw [netloc_of_not_hasHiddenFront hidden asks, or_iff_right hidden]

/-- What a request asks stands in the address that is checked. -/
theorem asks_unwrap_iff
    {url : String} {asked : List Char} :
    Asks (Model.unwrap (Model.endpoint (bareAddress url))).toList asked ↔
      Asks (withoutFront (checkedAddress url)) asked := by
  have noSlash : (withoutFront (checkedAddress url)).getLast? ≠ some '/' := by
    intro slash
    obtain ⟨front, shape⟩ := withoutFront_suffix (checkedAddress url)
    apply getLast?_checkedAddress url
    rw [← shape, List.getLast?_append, slash]
    rfl
  rw [toList_unwrap_endpoint]
  exact asks_append_iff noSlash

end Net

/-! ## Calls -/

namespace Model

/-- A call goes to a host. -/
def Call.GoesTo (call : Call) (host : String) : Prop :=
  ∃ asked, Net.Asks call.url.toList asked ∧ host = String.ofList (Net.dialledHost asked)

/-- A fragment begins with a hash. -/
theorem withoutFragment_append
    {front : List Char} (unmarked : '#' ∉ front) (rest : List Char) :
    withoutFragment (front ++ rest) = front ++ withoutFragment rest := by
  unfold withoutFragment
  by_cases marked : '#' ∈ rest
  · have stops : ¬∀ character ∈ rest.reverse, (character != '#') = true := by
      intro all
      simpa using all '#' (List.mem_reverse.mpr marked)
    have nonempty : (rest.reverse.dropWhile (· != '#')).isEmpty = false := by
      rwa [List.isEmpty_eq_false_iff, ne_eq, List.dropWhile_eq_nil_iff]
    obtain ⟨first, others, behind⟩ := List.exists_cons_of_ne_nil
      (List.isEmpty_eq_false_iff.mp nonempty)
    simp [unmarked, marked, List.reverse_append, List.dropWhile_append, behind]
  · simp [unmarked, marked]

theorem hasScheme_of_asks
    {url : String} {asked : List Char} (asks : Net.Asks url.toList asked) :
    hasScheme url = true := by
  obtain ⟨scheme, rest, shape, web, _⟩ := asks
  have stays : ∀ character ∈ scheme, Net.Stays character := fun character member =>
    Net.letter_stays (web.isAlpha character member)
  have unmarked : '#' ∉ scheme ++ [':'] := by
    intro member
    rcases List.mem_append.mp member with inScheme | colon
    · exact absurd (web.isAlpha '#' inScheme) (by decide)
    · simp at colon
  have address :
      withoutFragment url.toList =
        scheme ++ ':' :: withoutFragment ('/' :: '/' :: (asked ++ rest)) := by
    rw [shape, ← List.singleton_append, ← List.append_assoc, withoutFragment_append unmarked,
      List.append_assoc, List.singleton_append]
  have found :
      (withoutFragment url.toList).takeWhile
          (fun character => character != ':' && character != '/') =
        scheme := by
    rw [address]
    apply Net.takeWhile_append_of_stop
    · intro character member
      simp [(stays character member).ne_colon, (stays character member).ne_slash]
    · intro character first
      cases first
      rfl
  unfold hasScheme
  dsimp only
  rw [found, address]
  simp [web.ne_nil]

/-- A runner that a choice makes has the address that the choice names, if that
is accepted. -/
theorem Runner.exists_ofOptions_iff
    {environment : List (String × String)} {options : Options} {address : String} :
    (∃ runner, Runner.ofOptions environment options = .ok runner ∧
        runner.address = some address) ↔
      ∃ url, options.wishedAddress environment = some url ∧
        Net.ensureLocal url = .ok address := by
  unfold Runner.ofOptions
  cases options.wishedAddress environment with
  | none =>
      simp [pure, Except.pure, bind, Except.bind]
  | some url =>
      simp only [Option.mapM_some, Option.some.injEq, exists_eq_left']
      cases Net.ensureLocal url with
      | error refusal =>
          refine iff_of_false ?_ (by simp)
          intro given
          obtain ⟨runner, made, _⟩ := given
          cases made
      | ok found =>
          constructor
          · intro given
            obtain ⟨runner, made, addressed⟩ := given
            cases made
            exact congrArg Except.ok (Option.some.inj addressed)
          · intro same
            cases same
            exact ⟨_, rfl, rfl⟩

theorem Runner.choices_of_ofOptions
    {environment : List (String × String)} {options : Options} {runner : Runner}
    (made : Runner.ofOptions environment options = .ok runner) :
    runner.temperature = options.temperature ∧ runner.maxTokens = options.maxTokens := by
  unfold Runner.ofOptions at made
  obtain ⟨_, _, made⟩ := bind_eq_ok_iff.mp made
  cases made
  exact ⟨rfl, rfl⟩

/-- A conversation makes no call but the one that asks the model. -/
theorem Runner.mem_chat_iff
    {runner : Runner} {messages : List Message} {wantsObject : Bool}
    {exchange : Call → Reply} {call : Call} :
    call ∈ (runner.chat messages wantsObject exchange).1 ↔
      runner.call messages wantsObject = .ok call := by
  unfold Runner.chat
  cases runner.call messages wantsObject with
  | error failure => simp
  | ok own => simp [eq_comm]

section

variable {environment : List (String × String)} {options : Options} {host : String}

/-- A call goes to a host only if what is sent can be written and the check lets
requests to the address go there. -/
theorem Runner.letsThrough_of_goesTo
    {runner : Runner} {messages : List Message} {wantsObject : Bool} {call : Call}
    (made : Runner.ofOptions environment options = .ok runner)
    (called : runner.call messages wantsObject = .ok call) (goes : call.GoesTo host) :
    AreShort [options.temperature, options.maxTokens] ∧
      ∃ url, options.wishedAddress environment = some url ∧ Net.LetsThrough url host := by
  obtain ⟨asked, asks, sameHost⟩ := goes
  obtain ⟨address, addressed, able, sameUrl⟩ := Runner.exists_call_iff.mp ⟨call, called, rfl⟩
  obtain ⟨url, wished, accepted⟩ :=
    Runner.exists_ofOptions_iff.mp ⟨runner, made, (nonEmpty_eq_some_iff.mp addressed).1⟩
  obtain ⟨rfl, passes⟩ := Net.ensureLocal_eq_ok_iff.mp accepted
  obtain ⟨sameTemperature, sameMost⟩ := Runner.choices_of_ofOptions made
  have short := able.short
  rw [sameTemperature, sameMost] at short
  have readable := able.readable
  rw [sameUrl] at asks
  rw [Net.netloc_of_asks asks] at readable
  rw [Net.asks_unwrap_iff] at asks
  exact ⟨short, url, wished, asked, asks, sameHost, readable,
    (Net.passes_seenPart_iff asks).mp passes⟩

/-- Where the check lets requests to an address go, a call goes. -/
theorem Runner.exists_goesTo_of_letsThrough
    {url : String} (short : AreShort [options.temperature, options.maxTokens])
    (wished : options.wishedAddress environment = some url) (lets : Net.LetsThrough url host)
    (messages : List Message) (wantsObject : Bool) :
    ∃ runner call, Runner.ofOptions environment options = .ok runner ∧
      runner.call messages wantsObject = .ok call ∧ call.GoesTo host := by
  obtain ⟨asked, asks, sameHost, readable, passes⟩ := lets
  have accepted : Net.ensureLocal url = .ok (Net.bareAddress url) :=
    Net.ensureLocal_eq_ok_iff.mpr ⟨rfl, (Net.passes_seenPart_iff asks).mpr passes⟩
  obtain ⟨runner, made, addressed⟩ := Runner.exists_ofOptions_iff.mpr ⟨url, wished, accepted⟩
  have nonempty : Net.bareAddress url ≠ "" := by
    intro empty
    unfold Net.checkedAddress at asks
    rw [empty] at asks
    exact asks.ne_nil rfl
  have unwrapped := Net.asks_unwrap_iff.mpr asks
  obtain ⟨sameTemperature, sameMost⟩ := Runner.choices_of_ofOptions made
  rw [← sameTemperature, ← sameMost] at short
  rw [← Net.netloc_of_asks unwrapped] at readable
  obtain ⟨call, called, sameUrl⟩ :=
    (@Runner.exists_call_iff runner messages wantsObject _).mpr
      ⟨Net.bareAddress url, nonEmpty_eq_some_iff.mpr ⟨addressed, nonempty⟩,
        ⟨short, hasScheme_of_asks unwrapped, readable⟩, rfl⟩
  exact ⟨runner, call, made, called, asked, sameUrl ▸ unwrapped, sameHost⟩

end

/-- A choice makes calls to a host exactly when what it sends can be written and
the check lets requests to the address that it names go there.  The host may be any
where something is hidden in front of the address.  Where nothing is hidden and the
part that is asked is plain, it is this machine. -/
theorem calls_go_to_host_iff
    (environment : List (String × String)) (options : Options)
    (messages : List Message) (wantsObject : Bool) (exchange : Call → Reply) :
    (∀ host,
      (∃ runner call, Runner.ofOptions environment options = .ok runner ∧
          call ∈ (runner.chat messages wantsObject exchange).1 ∧ call.GoesTo host) ↔
        AreShort [options.temperature, options.maxTokens] ∧
          ∃ url, options.wishedAddress environment = some url ∧ Net.LetsThrough url host) ∧
      ∀ url host, Net.LetsThrough url host →
        ¬Net.HasHiddenFront (Net.checkedAddress url) →
        (∃ name port, Net.IsPlainPart name port ∧
          Net.Asks (Net.withoutFront (Net.checkedAddress url)) (name ++ port)) →
        Net.isLocalHost host = true := by
  refine ⟨?_, ?_⟩
  · intro host
    simp only [Runner.mem_chat_iff]
    constructor
    · rintro ⟨runner, call, made, called, goes⟩
      exact Runner.letsThrough_of_goesTo made called goes
    · rintro ⟨short, url, wished, lets⟩
      exact Runner.exists_goesTo_of_letsThrough short wished lets messages wantsObject
  · rintro url host ⟨asked, asks, rfl, _, passes⟩ visible ⟨name, port, plain, plainAsks⟩
    rw [asks.unique plainAsks] at passes ⊢
    exact plain.isLocalHost_of_passes (passes.resolve_left visible)

/-- A choice with a label in front of its address. -/
def labelledOptions : Options :=
  { address := .given (some "URL:http://models.example.com/v1/") }

/-- What is sent unless something else is chosen can be written. -/
theorem areShort_usual : AreShort [some usualTemperature, some usualMaxTokens] := by
  have short (most : Nat) (room : 4 ≤ most) : 4000 < Nat.pow 10 most :=
    calc
      4000 < Nat.pow 10 4 := by decide
      _ ≤ Nat.pow 10 most := Nat.pow_le_pow_right (by decide) room
  intro value member
  have usual : value = 4000 := by
    simpa [usualTemperature, usualMaxTokens] using member
  rw [usual]
  exact short Reading.mostDigits (by decide)

/-- Nothing is hidden in front of the usual address, and its part is plain. -/
theorem usualAddress_isPlain :
    ¬Net.HasHiddenFront (Net.checkedAddress usualAddress) ∧
      ∃ name port, Net.IsPlainPart name port ∧
        Net.Asks (Net.withoutFront (Net.checkedAddress usualAddress)) (name ++ port) := by
  have front : (Net.checkedAddress usualAddress).takeWhile Text.isBlank = [] := by
    decide +kernel
  have noLabel :
      Net.label.isPrefixOf
        ((Net.checkedAddress usualAddress).dropWhile Text.isBlank) = false := by
    decide +kernel
  refine ⟨?_, "localhost".toList, ":12434".toList,
    ⟨by decide, by decide, Or.inr ⟨"12434".toList, rfl, by decide⟩,
      Net.forall_mem_of_all (by decide), Net.forall_mem_of_all (by decide)⟩,
    "http".toList, "/engines/v1".toList, by decide +kernel, Or.inl (by decide), by decide,
    Net.forall_mem_of_all (by decide), ?_⟩
  · intro given
    rcases given with labelled | ⟨character, member, _⟩
    · rw [← List.isPrefixOf_iff_prefix, noLabel] at labelled
      cases labelled
    · rw [front] at member
      cases member
  · intro character first
    cases first
    rfl

theorem calls_go_to_host_labelled :
    (Net.isLocalHost "models.example.com" = false ∧
      ∃ runner call, Runner.ofOptions [] labelledOptions = .ok runner ∧
        call ∈ (runner.chat [] true fun _ => .timedOut).1 ∧
          call.GoesTo "models.example.com") ∧
      ∀ host, Net.LetsThrough usualAddress host → Net.isLocalHost host = true := by
  have calls := calls_go_to_host_iff [] labelledOptions [] true fun _ => .timedOut
  refine ⟨⟨by decide +kernel, (calls.1 "models.example.com").mpr ?_⟩, ?_⟩
  · refine ⟨areShort_usual, _, rfl, "models.example.com".toList, ?_, by decide +kernel, ?_,
      Or.inl (Or.inl ?_)⟩
    · refine ⟨"http".toList, "/v1".toList, by decide +kernel, Or.inl (by decide), by decide,
        Net.forall_mem_of_all (by decide), ?_⟩
      intro character first
      cases first
      rfl
    · exact ⟨Net.checkBrackets_eq_ok_iff.mp rfl, Net.forall_mem_of_all (by decide)⟩
    · exact List.isPrefixOf_iff_prefix.mp (by decide +kernel)
  · intro host letsThrough
    exact calls.2 usualAddress host letsThrough usualAddress_isPlain.1 usualAddress_isPlain.2

end Model

end ModuleAtlas
