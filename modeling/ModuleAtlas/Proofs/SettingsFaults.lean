import ModuleAtlas.Proofs.RecordedOutcomes
import ModuleAtlas.Settings.Basic

/-!
# Faults of settings

Settings that say something wrong are passed over, but not every fault of their
file is one of what they say.  The faults that nothing forgives are those of the
path, of the octets, of a text that breaks its reader off, and of numbers beyond
their limits.
-/

namespace ModuleAtlas

/-! ## Numbers beyond their limits -/

namespace Yaml.Value

/-- A whole number has too many digits to be written. -/
def IsUnwritable (number : Int) : Prop :=
  Nat.pow 10 Reading.mostDigits ≤ number.natAbs

/-- A whole number is beyond all floating-point numbers. -/
def IsBeyondFloats (number : Int) : Prop :=
  Binary64.ofInt? number = none

theorem intText_eq_error_iff {number : Int} {limit : Limit} :
    intText number = .error limit ↔ IsUnwritable number ∧ limit = .digits := by
  by_cases unwritable : IsUnwritable number
  · have fails : intText number = .error .digits := if_pos unwritable
    simp [fails, unwritable, eq_comm]
  · have succeeds : intText number = .ok (Decimal.intText number) := if_neg unwritable
    simp [succeeds, unwritable]

theorem asText_eq_error_iff {value : Value} {limit : Limit} :
    value.asText = .error limit ↔
      ∃ number, value = .int number ∧ IsUnwritable number ∧ limit = .digits := by
  cases value with
  | int number =>
      have own := @intText_eq_error_iff number limit
      cases written : intText number with
      | ok text =>
          rw [written] at own
          simpa [asText, written, Except.map] using own
      | error other =>
          rw [written] at own
          simpa [asText, written, Except.map] using own
  | _ => simp [asText]

theorem asFloat_eq_error_iff {value : Value} {limit : Limit} :
    value.asFloat = .error limit ↔
      ∃ number, value = .int number ∧ IsBeyondFloats number ∧ limit = .range := by
  cases value with
  | int number =>
      cases measured : Binary64.ofInt? number with
      | none => simp [asFloat, IsBeyondFloats, measured, eq_comm]
      | some float => simp [asFloat, IsBeyondFloats, measured]
  | _ => simp [asFloat]

theorem asTexts_eq_error_iff {value : Value} {limit : Limit} :
    value.asTexts = .error limit ↔
      ∃ items number, value = .list items ∧ .int number ∈ items ∧
        IsUnwritable number ∧ limit = .digits := by
  cases value with
  | list items =>
      constructor
      · intro failed
        cases texts : items.mapM asText with
        | ok values =>
            simp [asTexts, texts, Except.map] at failed
        | error other =>
            have same : other = limit := by simpa [asTexts, texts, Except.map] using failed
            obtain ⟨item, member, raised⟩ := exists_error_of_mapM (same ▸ texts)
            obtain ⟨number, rfl, unwritable, isDigits⟩ := asText_eq_error_iff.mp raised
            exact ⟨items, number, rfl, member, unwritable, isDigits⟩
      · rintro ⟨_, number, same, member, unwritable, rfl⟩
        cases same
        have raised : asText (.int number) = .error .digits :=
          asText_eq_error_iff.mpr ⟨number, rfl, unwritable, rfl⟩
        cases texts : items.mapM asText with
        | ok values =>
            obtain ⟨text, taken⟩ := exists_ok_of_mapM texts _ member
            rw [raised] at taken
            cases taken
        | error other =>
            obtain ⟨item, _, own⟩ := exists_error_of_mapM texts
            obtain ⟨_, _, _, rfl⟩ := asText_eq_error_iff.mp own
            simp [asTexts, texts, Except.map]
  | _ => simp [asTexts]

end Yaml.Value

namespace Settings

open Yaml.Value (IsUnwritable IsBeyondFloats)

/-! ## Fields -/

/-- The fields of a document ask for fewer than one worker. -/
def AsksForNoWorkers (fields : List (String × Yaml.Value)) : Prop :=
  ∃ workers, (fieldOf (fieldOf fields "scan").asFields "max_workers").asInt = some workers ∧
    workers < 1

/-- The fields of a document hold a number that cannot be taken as what it
stands for. -/
inductive Oversized (fields : List (String × Yaml.Value)) : Yaml.Value.Limit → Prop
  | named {key : String} {number : Int} :
      key ∈ ["model", "base_url", "api_key"] →
      fieldOf (fieldOf fields "llm").asFields key = .int number →
      IsUnwritable number →
      Oversized fields .digits
  | measured {key : String} {number : Int} :
      key ∈ ["temperature", "request_timeout"] →
      fieldOf (fieldOf fields "llm").asFields key = .int number →
      IsBeyondFloats number →
      Oversized fields .range
  | listed {items : List Yaml.Value} {number : Int} :
      fieldOf fields "exclude_paths" = .list items →
      .int number ∈ items →
      IsUnwritable number →
      Oversized fields .digits

theorem not_asksForNoWorkers_nil : ¬AsksForNoWorkers [] := by
  rintro ⟨workers, wished, _⟩
  cases wished

theorem not_oversized_nil (limit : Yaml.Value.Limit) : ¬Oversized [] limit := by
  rintro (⟨_, found, _⟩ | ⟨_, found, _⟩ | ⟨found, _, _⟩) <;> cases found

/-- Fewer than one worker is the only fault of the settings about the search. -/
theorem scanOf_spec (fields : List (String × Yaml.Value)) :
    match scanOf fields with
    | .error fault =>
        fault = .noWorkers ∧
          ∃ workers, (fieldOf fields "max_workers").asInt = some workers ∧ workers < 1
    | .ok scan =>
        1 ≤ scan.workers ∧
          ∀ workers, (fieldOf fields "max_workers").asInt = some workers → ¬workers < 1 := by
  unfold scanOf
  cases (fieldOf fields "max_workers").asInt with
  | none =>
      simp [pure, Except.pure]
  | some workers =>
      by_cases few : workers < 1
      · simp [few, bind, Except.bind, throw, throwThe, MonadExceptOf.throw]
      · simp [few, pure, Except.pure, Int.not_lt.mp few]

theorem within_eq_error
    {α : Type} {result : Except Yaml.Value.Limit α} {fault : Fault}
    (failed : within result = .error fault) :
    ∃ limit, fault = .limit limit ∧ result = .error limit := by
  obtain ⟨limit, raised, same⟩ := mapError_eq_error_iff.mp failed
  exact ⟨limit, same.symm, raised⟩

theorem oversized_of_modelOf
    {fields : List (String × Yaml.Value)} {fault : Fault}
    (failed : modelOf (fieldOf fields "llm").asFields = .error fault) :
    ∃ limit, fault = .limit limit ∧ Oversized fields limit := by
  have named : ∀ key ∈ ["model", "base_url", "api_key"],
      within (fieldOf (fieldOf fields "llm").asFields key).asText = .error fault →
      ∃ limit, fault = .limit limit ∧ Oversized fields limit := by
    intro key member failed
    obtain ⟨limit, same, raised⟩ := within_eq_error failed
    obtain ⟨number, found, unwritable, rfl⟩ := Yaml.Value.asText_eq_error_iff.mp raised
    exact ⟨.digits, same, .named member found unwritable⟩
  have measured : ∀ key ∈ ["temperature", "request_timeout"],
      within (fieldOf (fieldOf fields "llm").asFields key).asFloat = .error fault →
      ∃ limit, fault = .limit limit ∧ Oversized fields limit := by
    intro key member failed
    obtain ⟨limit, same, raised⟩ := within_eq_error failed
    obtain ⟨number, found, beyond, rfl⟩ := Yaml.Value.asFloat_eq_error_iff.mp raised
    exact ⟨.range, same, .measured member found beyond⟩
  rcases bind_eq_error_iff.mp failed with own | ⟨_, _, failed⟩
  · exact named "model" (by simp) own
  rcases bind_eq_error_iff.mp failed with own | ⟨_, _, failed⟩
  · exact named "base_url" (by simp) own
  rcases bind_eq_error_iff.mp failed with own | ⟨_, _, failed⟩
  · exact named "api_key" (by simp) own
  rcases bind_eq_error_iff.mp failed with own | ⟨_, _, failed⟩
  · exact measured "temperature" (by simp) own
  rcases bind_eq_error_iff.mp failed with own | ⟨_, _, failed⟩
  · exact measured "request_timeout" (by simp) own
  · cases failed

theorem taken_of_modelOf
    {fields : List (String × Yaml.Value)} {model : ModelSettings}
    (taken : modelOf fields = .ok model) :
    (∀ key ∈ ["model", "base_url", "api_key"], ∃ text, (fieldOf fields key).asText = .ok text) ∧
      ∀ key ∈ ["temperature", "request_timeout"],
        ∃ float, (fieldOf fields key).asFloat = .ok float := by
  obtain ⟨_, name, taken⟩ := bind_eq_ok_iff.mp taken
  obtain ⟨_, address, taken⟩ := bind_eq_ok_iff.mp taken
  obtain ⟨_, key, taken⟩ := bind_eq_ok_iff.mp taken
  obtain ⟨_, temperature, taken⟩ := bind_eq_ok_iff.mp taken
  obtain ⟨_, timeout, _⟩ := bind_eq_ok_iff.mp taken
  simp only [List.forall_mem_cons, List.not_mem_nil, false_imp_iff, implies_true, and_true]
  exact ⟨⟨⟨_, mapError_eq_ok_iff.mp name⟩, ⟨_, mapError_eq_ok_iff.mp address⟩,
    ⟨_, mapError_eq_ok_iff.mp key⟩⟩, ⟨_, mapError_eq_ok_iff.mp temperature⟩,
    ⟨_, mapError_eq_ok_iff.mp timeout⟩⟩

/-- The fields of a document make settings, unless they ask for no workers or
hold a number that cannot be taken. -/
theorem ofFields_spec (root : String) (fields : List (String × Yaml.Value)) :
    match ofFields root fields with
    | .error fault =>
        (fault = .noWorkers ∧ AsksForNoWorkers fields) ∨
          ¬AsksForNoWorkers fields ∧ ∃ limit, fault = .limit limit ∧ Oversized fields limit
    | .ok settings =>
        1 ≤ settings.scan.workers ∧ ∀ limit, ¬Oversized fields limit := by
  have scanned := scanOf_spec (fieldOf fields "scan").asFields
  cases made : ofFields root fields with
  | error fault =>
      rcases bind_eq_error_iff.mp made with own | ⟨scan, own, made⟩
      · rw [own] at scanned
        exact Or.inl scanned
      · rw [own] at scanned
        have enough : ¬AsksForNoWorkers fields :=
          fun ⟨workers, wished, few⟩ => scanned.2 workers wished few
        refine Or.inr ⟨enough, ?_⟩
        rcases bind_eq_error_iff.mp made with failed | ⟨model, _, made⟩
        · exact oversized_of_modelOf failed
        · obtain ⟨limit, same, raised⟩ := within_eq_error (bind_pure_eq_error_iff.mp made)
          obtain ⟨items, number, found, member, unwritable, rfl⟩ :=
            Yaml.Value.asTexts_eq_error_iff.mp raised
          exact ⟨.digits, same, .listed found member unwritable⟩
  | ok settings =>
      obtain ⟨scan, own, made⟩ := bind_eq_ok_iff.mp made
      obtain ⟨model, taken, made⟩ := bind_eq_ok_iff.mp made
      obtain ⟨excluded, listed, made⟩ := bind_eq_ok_iff.mp made
      cases made
      rw [own] at scanned
      refine ⟨scanned.1, ?_⟩
      obtain ⟨texts, floats⟩ := taken_of_modelOf taken
      intro limit oversized
      cases oversized with
      | @named key number member found unwritable =>
          obtain ⟨text, written⟩ := texts key member
          rw [Yaml.Value.asText_eq_error_iff.mpr ⟨number, found, unwritable, rfl⟩] at written
          cases written
      | @measured key number member found beyond =>
          obtain ⟨float, measured⟩ := floats key member
          rw [Yaml.Value.asFloat_eq_error_iff.mpr ⟨number, found, beyond, rfl⟩] at measured
          cases measured
      | @listed items number found member unwritable =>
          have raised :=
            Yaml.Value.asTexts_eq_error_iff.mpr ⟨items, number, found, member, unwritable, rfl⟩
          rw [mapError_eq_ok_iff.mp listed] at raised
          cases raised

/-! ## Texts -/

/-- A result of reading settings, seen from what stands in the way of them: they
are had, or passed over, only where nothing does. -/
inductive Faces (obstacle : Fault → Prop) : Except Fault Settings → Prop
  | had {settings : Settings} :
      1 ≤ settings.scan.workers →
      (∀ fault, ¬obstacle fault) →
      Faces obstacle (.ok settings)
  | passedOver {fault : Fault} :
      fault.isForgiven = true →
      (∀ other, ¬obstacle other) →
      Faces obstacle (.error fault)
  | stopped {fault : Fault} :
      fault.isForgiven = false →
      obstacle fault →
      Faces obstacle (.error fault)

/-- What breaks the reading of a text off. -/
inductive BreaksOff (text : String) : Fault → Prop
  /-- The reader itself gives up, for another reason than the grammar. -/
  | reader {fault : Yaml.Fault} :
      Text.isAllBlank text = false →
      Yaml.read text = .error fault →
      (Fault.unreadable fault).isForgiven = false →
      BreaksOff text (.unreadable fault)
  /-- A number cannot be taken. -/
  | number {fields : List (String × Yaml.Value)} {limit : Yaml.Value.Limit} :
      Text.isAllBlank text = false →
      Yaml.read text = .ok (.map fields) →
      ¬AsksForNoWorkers fields →
      Oversized fields limit →
      BreaksOff text (.limit limit)

theorem faces_ofFields_nil
    {obstacle : Fault → Prop} (root : String) (clear : ∀ fault, ¬obstacle fault) :
    Faces obstacle (ofFields root []) := by
  have spec := ofFields_spec root []
  cases made : ofFields root [] with
  | ok settings =>
      rw [made] at spec
      exact .had spec.1 clear
  | error fault =>
      rw [made] at spec
      rcases spec with ⟨_, few⟩ | ⟨_, limit, _, oversized⟩
      · exact absurd few not_asksForNoWorkers_nil
      · exact absurd oversized (not_oversized_nil limit)

theorem faces_ofText (root text : String) :
    Faces (BreaksOff text) (ofText root text) := by
  unfold ofText
  cases blank : Text.isAllBlank text with
  | true =>
      rw [if_pos rfl]
      apply faces_ofFields_nil
      rintro fault (⟨filled, _, _⟩ | ⟨filled, _, _, _⟩) <;> simp [blank] at filled
  | false =>
      rw [if_neg Bool.false_ne_true]
      cases readText : Yaml.read text with
      | error fault =>
          dsimp only
          cases forgiven : (Fault.unreadable fault).isForgiven with
          | true =>
              refine .passedOver forgiven ?_
              rintro other (⟨_, same, unforgiven⟩ | ⟨_, found, _, _⟩)
              · rw [readText] at same
                cases same
                rw [forgiven] at unforgiven
                cases unforgiven
              · rw [readText] at found
                cases found
          | false =>
              exact .stopped forgiven (.reader blank readText forgiven)
      | ok value =>
          -- No document but a mapping can break the reading off.
          have clear : (∀ fields, value ≠ .map fields) → ∀ fault, ¬BreaksOff text fault := by
            rintro noMapping fault (⟨_, failed, _⟩ | ⟨_, found, _, _⟩)
            · rw [readText] at failed
              cases failed
            · rw [readText] at found
              exact noMapping _ (Except.ok.inj found)
          cases value with
          | null =>
              exact faces_ofFields_nil root (clear (by simp))
          | map fields =>
              have spec := ofFields_spec root fields
              dsimp only
              cases made : ofFields root fields with
              | ok settings =>
                  rw [made] at spec
                  refine .had spec.1 ?_
                  rintro fault (⟨_, failed, _⟩ | ⟨_, found, _, oversized⟩)
                  · rw [readText] at failed
                    cases failed
                  · rw [readText] at found
                    cases found
                    exact spec.2 _ oversized
              | error fault =>
                  rw [made] at spec
                  rcases spec with ⟨rfl, few⟩ | ⟨enough, limit, rfl, oversized⟩
                  · refine .passedOver rfl ?_
                    rintro other (⟨_, failed, _⟩ | ⟨_, found, enough, _⟩)
                    · rw [readText] at failed
                      cases failed
                    · rw [readText] at found
                      cases found
                      exact enough few
                  · exact .stopped rfl (.number blank readText enough oversized)
          | _ => exact .passedOver rfl (clear (by simp))

/-! ## Files -/

/-- The file with the settings of a project can be located, and so can the
directory that holds it. -/
structure IsLocated (disk : Disk.Item) (project file : String) : Prop where
  leads : Disk.realPath disk (Path.join project fileName) = .ok file
  above : ∃ root, Disk.realPath disk (Path.directory file) = .ok root

/-- The settings of a project are a file with these octets. -/
structure HoldsOctets (disk : Disk.Item) (project file : String) (octets : List UInt8) :
    Prop where
  located : IsLocated disk project file
  stands : Disk.exists? disk file = .ok true
  read : Disk.read disk file = .ok octets

/-- What nothing forgives the settings of a project. -/
inductive Unforgiven (disk : Disk.Item) (project : String) : Fault → Prop
  /-- Links lead in a circle. -/
  | lost {fault : Disk.Lost} :
      Disk.realPath disk (Path.join project fileName) = .error fault →
      Unforgiven disk project (.lost fault)
  | lostAbove {file : String} {fault : Disk.Lost} :
      Disk.realPath disk (Path.join project fileName) = .ok file →
      Disk.realPath disk (Path.directory file) = .error fault →
      Unforgiven disk project (.lost fault)
  /-- The path cannot be looked at. -/
  | unreachable {file : String} {trouble : Disk.Trouble} :
      IsLocated disk project file →
      Disk.exists? disk file = .error trouble →
      Unforgiven disk project (.trouble trouble)
  /-- There is something else than a file that may be read. -/
  | unread {file : String} {trouble : Disk.Trouble} :
      IsLocated disk project file →
      Disk.exists? disk file = .ok true →
      Disk.read disk file = .error trouble →
      Unforgiven disk project (.trouble trouble)
  | notText {file : String} {octets : List UInt8} {fault : Text.Utf8.Fault} :
      HoldsOctets disk project file octets →
      Text.Utf8.decode octets = .error fault →
      Unforgiven disk project (.notText fault)
  | breaksOff {file text : String} {octets : List UInt8} {fault : Fault} :
      HoldsOctets disk project file octets →
      Text.Utf8.decode octets = .ok text →
      BreaksOff (Text.unifyLineEnds text) fault →
      Unforgiven disk project fault

theorem IsLocated.eq
    {disk : Disk.Item} {project file other : String}
    (located : IsLocated disk project file) (again : IsLocated disk project other) :
    other = file := by
  have same := again.leads
  rw [located.leads] at same
  exact (Except.ok.inj same).symm

section

variable {disk : Disk.Item} {project file : String}

/-- Once the file is located, only what it is and what it holds can stand in the
way. -/
theorem Unforgiven.of_isLocated
    {fault : Fault} (located : IsLocated disk project file)
    (unforgiven : Unforgiven disk project fault) :
    (∃ trouble, Disk.exists? disk file = .error trouble) ∨
      Disk.exists? disk file = .ok true ∧
        ((∃ trouble, Disk.read disk file = .error trouble) ∨
          ∃ octets, Disk.read disk file = .ok octets ∧
            ((∃ broken, Text.Utf8.decode octets = .error broken) ∨
              ∃ text, Text.Utf8.decode octets = .ok text ∧
                BreaksOff (Text.unifyLineEnds text) fault)) := by
  cases unforgiven with
  | lost failed =>
      rw [located.leads] at failed
      cases failed
  | lostAbove leads failed =>
      rw [located.leads] at leads
      cases leads
      obtain ⟨root, above⟩ := located.above
      rw [above] at failed
      cases failed
  | unreachable again failed =>
      cases located.eq again
      exact Or.inl ⟨_, failed⟩
  | unread again stands failed =>
      cases located.eq again
      exact Or.inr ⟨stands, Or.inl ⟨_, failed⟩⟩
  | notText holds failed =>
      cases located.eq holds.located
      exact Or.inr ⟨holds.stands, Or.inr ⟨_, holds.read, Or.inl ⟨_, failed⟩⟩⟩
  | breaksOff holds decoded breaks =>
      cases located.eq holds.located
      exact Or.inr ⟨holds.stands, Or.inr ⟨_, holds.read, Or.inr ⟨_, decoded, breaks⟩⟩⟩

/-- Where no file is, everything is as usual. -/
theorem not_unforgiven_of_absent
    (located : IsLocated disk project file) (absent : Disk.exists? disk file = .ok false)
    (fault : Fault) :
    ¬Unforgiven disk project fault := by
  intro unforgiven
  rcases unforgiven.of_isLocated located with ⟨_, failed⟩ | ⟨stands, _⟩
  · rw [absent] at failed
    cases failed
  · rw [absent] at stands
    cases stands

theorem unforgiven_iff_breaksOff
    {octets : List UInt8} {text : String} {fault : Fault}
    (holds : HoldsOctets disk project file octets)
    (decoded : Text.Utf8.decode octets = .ok text) :
    Unforgiven disk project fault ↔ BreaksOff (Text.unifyLineEnds text) fault := by
  refine ⟨fun unforgiven => ?_, .breaksOff holds decoded⟩
  rcases unforgiven.of_isLocated holds.located with
    ⟨_, failed⟩ | ⟨_, ⟨_, failed⟩ | ⟨_, found, ⟨_, failed⟩ | ⟨_, same, breaks⟩⟩⟩
  · rw [holds.stands] at failed
    cases failed
  · rw [holds.read] at failed
    cases failed
  · rw [holds.read] at found
    cases found
    rw [decoded] at failed
    cases failed
  · rw [holds.read] at found
    cases found
    rw [decoded] at same
    cases same
    exact breaks

theorem pathFor_of_isDirectory (entered : Disk.isDirectory disk project = .ok true) :
    pathFor disk project = (Disk.realPath disk (Path.join project fileName)).mapError .lost := by
  unfold pathFor
  rw [entered]
  rfl

theorem faces_load_of_isLocated
    (entered : Disk.isDirectory disk project = .ok true)
    (located : IsLocated disk project file) :
    Faces (Unforgiven disk project) (load disk project) := by
  obtain ⟨root, above⟩ := located.above
  rw [load, pathFor_of_isDirectory entered, located.leads]
  simp only [mapError_ok, bind, Except.bind, above]
  cases stands : Disk.exists? disk file with
  | error trouble =>
      exact .stopped rfl (.unreachable located stands)
  | ok standing =>
      cases standing with
      | false =>
          have usual : (1 : Int) ≤ ({} : ScanSettings).workers := by decide
          exact .had usual (not_unforgiven_of_absent located stands)
      | true =>
          simp only [mapError_ok]
          cases held : Disk.read disk file with
          | error trouble =>
              exact .stopped rfl (.unread located stands held)
          | ok octets =>
              have holds : HoldsOctets disk project file octets := ⟨located, stands, held⟩
              simp only [mapError_ok]
              cases decoded : Text.Utf8.decode octets with
              | error fault =>
                  exact .stopped rfl (.notText holds decoded)
              | ok text =>
                  have same : Unforgiven disk project = BreaksOff (Text.unifyLineEnds text) :=
                    funext fun fault => propext (unforgiven_iff_breaksOff holds decoded)
                  rw [same]
                  exact faces_ofText root (Text.unifyLineEnds text)

/-- The settings of a project are read, or they are at fault: forgiven, or by
one of the obstacles that nothing forgives. -/
theorem faces_load (entered : Disk.isDirectory disk project = .ok true) :
    Faces (Unforgiven disk project) (load disk project) := by
  have begins := pathFor_of_isDirectory entered
  cases leads : Disk.realPath disk (Path.join project fileName) with
  | error fault =>
      rw [leads] at begins
      rw [load, begins]
      exact .stopped rfl (.lost leads)
  | ok file =>
      cases above : Disk.realPath disk (Path.directory file) with
      | error fault =>
          rw [leads] at begins
          rw [load, begins]
          simp only [mapError_ok, bind, Except.bind, above, mapError_error]
          exact .stopped rfl (.lostAbove leads above)
      | ok root =>
          exact faces_load_of_isLocated entered ⟨leads, root, above⟩

end

end Settings

end ModuleAtlas
