import Mathlib.Data.List.Basic
import ModuleAtlas.Proofs.SettingsFaults

/-!
# Documents of settings

What the value in a file of settings decides.  It is a fault of the settings
exactly where it is no mapping or asks for fewer than one worker, and each block
of the settings is made of one field of it alone.  A number beyond its limits is
no fault of the settings: it breaks their reading off.
-/

namespace ModuleAtlas.Settings

/-! ## Blocks -/

/-- The settings are made of the fields of a document, block by block. -/
structure IsMadeOf (settings : Settings) (fields : List (String × Yaml.Value)) : Prop where
  scan : scanOf (fieldOf fields "scan").asFields = .ok settings.scan
  model : modelOf (fieldOf fields "llm").asFields = .ok settings.model
  excluded : (fieldOf fields "exclude_paths").asTexts = .ok settings.excluded

/-- Two values have the same under a key, or neither has anything there. -/
def AgreeOn (key : String) (value second : Yaml.Value) : Prop :=
  fieldOf value.asFields key = fieldOf second.asFields key

/-- Every block of the settings is that of other settings, where the values that
both are made of agree on its field. -/
structure SharesBlocks (settings others : Settings) (value second : Yaml.Value) : Prop where
  scan : AgreeOn "scan" value second → settings.scan = others.scan
  model : AgreeOn "llm" value second → settings.model = others.model
  excluded : AgreeOn "exclude_paths" value second → settings.excluded = others.excluded

theorem isMadeOf_of_ofFields
    {root : String} {fields : List (String × Yaml.Value)} {settings : Settings}
    (made : ofFields root fields = .ok settings) :
    settings.IsMadeOf fields ∧ settings.root = root := by
  obtain ⟨scan, scanned, made⟩ := bind_eq_ok_iff.mp made
  obtain ⟨model, taken, made⟩ := bind_eq_ok_iff.mp made
  obtain ⟨excluded, listed, made⟩ := bind_eq_ok_iff.mp made
  cases made
  exact ⟨⟨scanned, taken, mapError_eq_ok_iff.mp listed⟩, rfl⟩

theorem IsMadeOf.enoughWorkers
    {settings : Settings} {fields : List (String × Yaml.Value)} (made : settings.IsMadeOf fields) :
    1 ≤ settings.scan.workers ∧ ¬AsksForNoWorkers fields := by
  have spec := scanOf_spec (fieldOf fields "scan").asFields
  rw [made.scan] at spec
  obtain ⟨positive, wishes⟩ := spec
  exact ⟨positive, fun ⟨workers, wished, few⟩ => wishes workers wished few⟩

theorem IsMadeOf.sharesBlocks
    {settings others : Settings} {value second : Yaml.Value}
    (made : settings.IsMadeOf value.asFields) (madeToo : others.IsMadeOf second.asFields) :
    SharesBlocks settings others value second where
  scan agree := by
    have same := made.scan
    rw [agree, madeToo.scan] at same
    exact (Except.ok.inj same).symm
  model agree := by
    have same := made.model
    rw [agree, madeToo.model] at same
    exact (Except.ok.inj same).symm
  excluded agree := by
    have same := made.excluded
    rw [agree, madeToo.excluded] at same
    exact (Except.ok.inj same).symm

/-! ## Values -/

/-- The value is nothing or a mapping. -/
inductive IsDocument : Yaml.Value → Prop
  | null : IsDocument .null
  | map {fields : List (String × Yaml.Value)} : IsDocument (.map fields)

/-- The settings in a value. -/
def ofValue (root : String) : Yaml.Value → Except Fault Settings
  | .null => ofFields root []
  | .map fields => ofFields root fields
  | _ => .error .notAMapping

theorem ofValue_of_isDocument (root : String) {value : Yaml.Value} (document : IsDocument value) :
    ofValue root value = ofFields root value.asFields := by
  cases document with
  | null => rfl
  | map => rfl

theorem ofValue_of_not_isDocument
    (root : String) {value : Yaml.Value} (strange : ¬IsDocument value) :
    ofValue root value = .error .notAMapping := by
  cases value with
  | null => exact absurd .null strange
  | map fields => exact absurd .map strange
  | _ => rfl

/-- Only a mapping has fields. -/
theorem asFields_of_not_isDocument {value : Yaml.Value} (strange : ¬IsDocument value) :
    value.asFields = [] := by
  cases value with
  | map fields => exact absurd .map strange
  | _ => rfl

/-- What keeps settings from being had from a value. -/
inductive Hinders (value : Yaml.Value) : Fault → Prop
  | noMapping :
      ¬IsDocument value →
      Hinders value .notAMapping
  | noWorkers :
      AsksForNoWorkers value.asFields →
      Hinders value .noWorkers
  | number {limit : Yaml.Value.Limit} :
      ¬AsksForNoWorkers value.asFields →
      Oversized value.asFields limit →
      Hinders value (.limit limit)

theorem decidedBy_ofValue (root : String) (value : Yaml.Value) :
    DecidedBy (Hinders value)
      (fun settings => settings.root = root ∧ settings.IsMadeOf value.asFields)
      (ofValue root value) := by
  by_cases document : IsDocument value
  · have spec := ofFields_spec root value.asFields
    rw [ofValue_of_isDocument root document]
    cases result : ofFields root value.asFields with
    | error fault =>
        rw [result] at spec
        rcases spec with ⟨rfl, few⟩ | ⟨enough, limit, rfl, oversized⟩
        · exact .fails (.noWorkers few)
        · exact .fails (.number enough oversized)
    | ok settings =>
        rw [result] at spec
        obtain ⟨made, rooted⟩ := isMadeOf_of_ofFields result
        refine .succeeds ?_ ⟨rooted, made⟩
        rintro fault (strange | few | ⟨_, oversized⟩)
        · exact strange document
        · exact made.enoughWorkers.2 few
        · exact spec.2 _ oversized
  · rw [ofValue_of_not_isDocument root document]
    exact .fails (.noMapping document)

theorem forall_not_hinders_iff (value : Yaml.Value) :
    (∀ fault, ¬Hinders value fault) ↔
      IsDocument value ∧ ¬AsksForNoWorkers value.asFields ∧
        ∀ limit, ¬Oversized value.asFields limit := by
  constructor
  · intro clear
    have enough : ¬AsksForNoWorkers value.asFields := fun few => clear _ (.noWorkers few)
    refine ⟨?_, enough, fun limit oversized => clear _ (.number enough oversized)⟩
    by_contra strange
    exact clear _ (.noMapping strange)
  · rintro ⟨document, enough, writable⟩ fault (strange | few | ⟨_, oversized⟩)
    · exact strange document
    · exact enough few
    · exact writable _ oversized

/-- A value that is no mapping has no fields to be at fault, and the numbers are
not looked at before the workers. -/
theorem Hinders.alike
    {value : Yaml.Value} {fault other : Fault}
    (hinders : Hinders value fault) (hindersToo : Hinders value other) :
    fault.isForgiven = other.isForgiven := by
  have fieldless : ¬IsDocument value → ∀ limit, ¬Oversized value.asFields limit := by
    intro strange limit
    rw [asFields_of_not_isDocument strange]
    exact not_oversized_nil limit
  cases hinders with
  | noMapping strange =>
      cases hindersToo with
      | noMapping => rfl
      | noWorkers => rfl
      | number _ oversized => exact absurd oversized (fieldless strange _)
  | noWorkers few =>
      cases hindersToo with
      | noMapping => rfl
      | noWorkers => rfl
      | number enough _ => exact absurd few enough
  | number enough oversized =>
      cases hindersToo with
      | noMapping strange => exact absurd oversized (fieldless strange _)
      | noWorkers few => exact absurd few enough
      | number => rfl

/-- The faults of the settings themselves are of two kinds. -/
theorem exists_hinders_isForgiven_iff (value : Yaml.Value) :
    (∃ fault, Hinders value fault ∧ fault.isForgiven = true) ↔
      ¬IsDocument value ∨ AsksForNoWorkers value.asFields := by
  constructor
  · rintro ⟨fault, strange | few | ⟨_, _⟩, forgiven⟩
    · exact Or.inl strange
    · exact Or.inr few
    · cases forgiven
  · rintro (strange | few)
    · exact ⟨_, .noMapping strange, rfl⟩
    · exact ⟨_, .noWorkers few, rfl⟩

theorem exists_hinders_not_isForgiven_iff (value : Yaml.Value) :
    (∃ fault, Hinders value fault ∧ fault.isForgiven = false) ↔
      ¬AsksForNoWorkers value.asFields ∧ ∃ limit, Oversized value.asFields limit := by
  constructor
  · rintro ⟨fault, _ | _ | ⟨enough, oversized⟩, unforgiven⟩
    · cases unforgiven
    · cases unforgiven
    · exact ⟨enough, _, oversized⟩
  · rintro ⟨enough, limit, oversized⟩
    exact ⟨_, .number enough oversized, rfl⟩

/-! ## Files -/

/-- What a text stands for as a document; a blank one stands for nothing. -/
inductive StandsFor (text : String) : Yaml.Value → Prop
  | blank :
      Text.isAllBlank text = true →
      StandsFor text .null
  | read {value : Yaml.Value} :
      Text.isAllBlank text = false →
      Yaml.read text = .ok value →
      StandsFor text value

/-- The settings for a path are a file in the directory `root`, with a text that
stands for the value. -/
inductive Holds (disk : Disk.Item) (path root : String) (value : Yaml.Value) : Prop
  | file {file text : String} {octets : List UInt8} :
      pathFor disk path = .ok file →
      Disk.realPath disk (Path.directory file) = .ok root →
      Disk.exists? disk file = .ok true →
      Disk.read disk file = .ok octets →
      Text.Utf8.decode octets = .ok text →
      StandsFor (Text.unifyLineEnds text) value →
      Holds disk path root value

theorem StandsFor.ofText_eq
    {text : String} {value : Yaml.Value} (stands : StandsFor text value) (root : String) :
    ofText root text = ofValue root value := by
  cases stands with
  | blank blank =>
      rw [ofText, if_pos blank]
      rfl
  | read filled read =>
      rw [ofText, if_neg (by simp [filled]), read]
      cases value with
      | _ => rfl

theorem Holds.load_eq
    {disk : Disk.Item} {path root : String} {value : Yaml.Value}
    (holds : Holds disk path root value) :
    load disk path = ofValue root value := by
  obtain ⟨leads, above, stands, read, decoded, standsFor⟩ := holds
  rw [load, leads]
  simp only [bind, Except.bind, above, stands, read, decoded, mapError_ok, Bool.not_true,
    Bool.false_eq_true, if_false]
  exact standsFor.ofText_eq root

/-- Whatever value a file of settings holds, loading them is a fault of the
settings exactly where the value is neither nothing nor a mapping, or asks for
fewer than one worker.  It breaks off exactly where the value holds a number that
cannot be taken, and otherwise gives settings: with at least one worker, and with
every block made of one field of the value alone. -/
theorem load_follows_document
    {disk : Disk.Item} {path root : String} {value : Yaml.Value}
    (holds : Holds disk path root value) :
    ((∃ fault, load disk path = .error fault ∧ fault.isForgiven = true) ↔
        ¬IsDocument value ∨ AsksForNoWorkers value.asFields) ∧
      ((∃ fault, load disk path = .error fault ∧ fault.isForgiven = false) ↔
        ¬AsksForNoWorkers value.asFields ∧ ∃ limit, Oversized value.asFields limit) ∧
      ((∃ settings, load disk path = .ok settings) ↔
        IsDocument value ∧ ¬AsksForNoWorkers value.asFields ∧
          ∀ limit, ¬Oversized value.asFields limit) ∧
      ∀ settings, load disk path = .ok settings →
        settings.root = root ∧ 1 ≤ settings.scan.workers ∧
          ∀ secondDisk secondPath secondRoot second others,
            Holds secondDisk secondPath secondRoot second →
            load secondDisk secondPath = .ok others →
            SharesBlocks settings others value second := by
  rw [holds.load_eq]
  have decided := decidedBy_ofValue root value
  have alike := fun fault other => @Hinders.alike value fault other
  have forgiven := decided.exists_error_iff alike true
  have unforgiven := decided.exists_error_iff alike false
  rw [exists_hinders_isForgiven_iff] at forgiven
  rw [exists_hinders_not_isForgiven_iff] at unforgiven
  refine ⟨forgiven, unforgiven, decided.exists_ok_iff.trans (forall_not_hinders_iff value), ?_⟩
  intro settings loaded
  rw [loaded] at decided
  obtain ⟨rooted, made⟩ := decided.of_ok.2
  refine ⟨rooted, made.enoughWorkers.1, ?_⟩
  intro secondDisk secondPath secondRoot second others holdsToo loadedToo
  have decidedToo := decidedBy_ofValue secondRoot second
  rw [holdsToo.load_eq] at loadedToo
  rw [loadedToo] at decidedToo
  exact made.sharesBlocks decidedToo.of_ok.2.2

/-- Settings that ask for no workers. -/
def idleText : String := "scan: \x7bmax_workers: 0\x7d\n"

/-- The disk of a project with these settings. -/
def idleDisk : Disk.Item :=
  .directory true true
    [("project", .directory true true [(fileName, .file true (Text.Utf8.encode idleText))])]

/-- A value with a temperature beyond all floating-point numbers. -/
def scorchingValue : Yaml.Value :=
  .map [("llm", .map [("temperature", .int (.ofNat (Nat.pow 10 309)))])]

theorem exists_holds_idleDisk :
    ∃ value, Holds idleDisk "/project" "/project" value ∧ AsksForNoWorkers value.asFields := by
  have wishes :
      (Yaml.read idleText).toOption.map
        (fun value => (fieldOf (fieldOf value.asFields "scan").asFields "max_workers").asInt) =
          some (some 0) := by
    decide +kernel
  obtain ⟨value, read, wished⟩ := exists_ok_of_seen wishes
  have leads : pathFor idleDisk "/project" = .ok "/project/.stackmap.yml" := by
    decide +kernel
  have unified : Text.unifyLineEnds idleText = idleText := by
    decide +kernel
  have stands : StandsFor (Text.unifyLineEnds idleText) value := by
    rw [unified]
    exact .read (by decide +kernel) read
  have holds : Holds idleDisk "/project" "/project" value :=
    .file leads (by decide +kernel) (by decide +kernel) rfl (by decide +kernel) stands
  exact ⟨value, holds, 0, wished, by decide⟩

theorem oversized_scorchingValue : Oversized scorchingValue.asFields .range :=
  have beyond : Binary64.ofInt? (.ofNat (Nat.pow 10 309)) = none := by decide +kernel
  .measured List.mem_cons_self rfl beyond

theorem load_follows_document_idle :
    (∃ value, Holds idleDisk "/project" "/project" value ∧ AsksForNoWorkers value.asFields ∧
        ∃ fault, load idleDisk "/project" = .error fault ∧ fault.isForgiven = true) ∧
      ∀ disk path root, Holds disk path root scorchingValue →
        ∃ fault, load disk path = .error fault ∧ fault.isForgiven = false := by
  obtain ⟨value, holds, few⟩ := exists_holds_idleDisk
  refine ⟨⟨value, holds, few, (load_follows_document holds).1.mpr (Or.inr few)⟩, ?_⟩
  intro disk path root holdsToo
  have enough : ¬AsksForNoWorkers scorchingValue.asFields := by
    rintro ⟨workers, wished, _⟩
    cases wished
  exact (load_follows_document holdsToo).2.1.mpr ⟨enough, _, oversized_scorchingValue⟩

end ModuleAtlas.Settings
