import ModuleAtlas.Disk.RealPath
import ModuleAtlas.Model.Runner
import ModuleAtlas.Settings.Coercion

/-!
# Settings of a project

The settings of a project, read from a file in its directory.
-/

namespace ModuleAtlas

structure ScanSettings where
  respectsIgnoreFile : Bool := true
  workers : Int := 8
  deriving DecidableEq, Repr

structure ModelSettings where
  enabled : Bool := false
  model : Option String := none
  address : Option String := none
  key : Option String := none
  temperature : Option Binary64 := none
  maxTokens : Option Int := none
  timeout : Option Binary64 := none
  deriving DecidableEq, Repr

structure Settings where
  root : String
  scan : ScanSettings := {}
  model : ModelSettings := {}
  excluded : List String := []
  deriving DecidableEq, Repr

def ModelSettings.options (settings : ModelSettings) : Model.Options :=
  let preference (value : Option String) : Model.Preference :=
    match value with
    | none => .automatic
    | some text => .given (some text)
  { model := settings.model
    address := preference settings.address
    key := preference settings.key
    temperature := (settings.temperature.map Quantity.real).or (some Model.usualTemperature)
    maxTokens := (settings.maxTokens.map Quantity.whole).or (some Model.usualMaxTokens)
    timeout := (settings.timeout.map Quantity.real).or (some Model.usualTimeout) }

namespace Settings

def fileName : String := ".stackmap.yml"

/-- Why settings cannot be read. -/
inductive Fault where
  /-- The text is no document. -/
  | unreadable (fault : Yaml.Fault)
  /-- The document is no mapping. -/
  | notAMapping
  /-- Fewer than one worker. -/
  | noWorkers
  /-- The file holds no text. -/
  | notText (fault : Text.Utf8.Fault)
  /-- The file cannot be read. -/
  | trouble (trouble : Disk.Trouble)
  /-- A number cannot be taken. -/
  | limit (limit : Yaml.Value.Limit)
  /-- The path of the file cannot be followed. -/
  | lost (fault : Disk.Lost)
  deriving DecidableEq, Repr

/-- Whether the fault is one of the settings themselves, which does not keep a project from being
analysed. -/
def Fault.isForgiven : Fault → Bool
  | .unreadable (.malformed _ _ _) => true
  | .unreadable (.unfit _) => true
  | .notAMapping => true
  | .noWorkers => true
  | _ => false

def Fault.message : Fault → String
  | .unreadable (.malformed complaint line column) =>
    s!"Failed to parse {fileName}: {Yaml.Fault.message (.malformed complaint line column)}"
  | .unreadable (.unfit complaint) => s!"Failed to parse {fileName}: {complaint}"
  | .unreadable fault => fault.message
  | .notAMapping => s!"{fileName} must contain a mapping at the root"
  | .noWorkers => "scan.max_workers must be a positive integer"
  | .notText fault => fault.message
  | .trouble cause => cause.message
  | .limit cause => cause.message
  | .lost fault => fault.message

/-- A value taken within its limits. -/
def within {α : Type} (result : Except Yaml.Value.Limit α) : Except Fault α :=
  result.mapError .limit

def fieldOf (fields : List (String × Yaml.Value)) (key : String) : Yaml.Value :=
  (fields.lookup key).getD .null

def scanOf (fields : List (String × Yaml.Value)) : Except Fault ScanSettings := do
  let respects := (fieldOf fields "respect_gitignore").asBool.getD true
  match (fieldOf fields "max_workers").asInt with
  | none => return { respectsIgnoreFile := respects }
  | some workers =>
    if workers < 1 then throw .noWorkers
    return ⟨respects, workers⟩

def modelOf (fields : List (String × Yaml.Value)) : Except Fault ModelSettings := do
  return { enabled := (fieldOf fields "enabled").asBool.getD false
           model := ← within (fieldOf fields "model").asText
           address := ← within (fieldOf fields "base_url").asText
           key := ← within (fieldOf fields "api_key").asText
           temperature := ← within (fieldOf fields "temperature").asFloat
           maxTokens := (fieldOf fields "max_tokens").asInt
           timeout := ← within (fieldOf fields "request_timeout").asFloat }

def ofFields (root : String) (fields : List (String × Yaml.Value)) : Except Fault Settings := do
  let scan ← scanOf (fieldOf fields "scan").asFields
  let model ← modelOf (fieldOf fields "llm").asFields
  let excluded ← within (fieldOf fields "exclude_paths").asTexts
  return ⟨root, scan, model, excluded⟩

/-- The settings in a text. A blank text and one that says nothing leave everything as usual. -/
def ofText (root text : String) : Except Fault Settings :=
  if Text.isAllBlank text then ofFields root []
  else
    match Yaml.read text with
    | .error fault => .error (.unreadable fault)
    | .ok .null => ofFields root []
    | .ok (.map fields) => ofFields root fields
    | .ok _ => .error .notAMapping

/-- The path of the file with settings for a path: in a directory the file in it, for another file the
one beside it. -/
def pathFor (disk : Disk.Item) (path : String) : Except Fault String := do
  let isDirectory ← (Disk.isDirectory disk path).mapError .trouble
  let wished :=
    if isDirectory then Path.join path fileName
    else if Path.lastComponent path == fileName then path
    else Path.join (Path.directory (Path.plain path)) fileName
  (Disk.realPath disk wished).mapError .lost

/-- The settings for a path. Where no file is, everything is as usual. -/
def load (disk : Disk.Item) (path : String) : Except Fault Settings := do
  let file ← pathFor disk path
  let root ← (Disk.realPath disk (Path.directory file)).mapError .lost
  if !(← (Disk.exists? disk file).mapError .trouble) then return { root := root }
  let octets ← (Disk.read disk file).mapError .trouble
  let text ← (Text.Utf8.decode octets).mapError .notText
  ofText root (Text.unifyLineEnds text)

end Settings

end ModuleAtlas
