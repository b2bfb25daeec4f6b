import ModuleAtlas.Net.Url
import ModuleAtlas.Number.Quantity
import ModuleAtlas.Report.Prompt
import ModuleAtlas.Text.Utf8

/-!
# Conversations with a model

Conversations with a model on the same machine: which model is asked and where, what is sent to it,
and what is made of its answer.
-/

namespace ModuleAtlas.Model

/-- A choice that may be left open. -/
inductive Preference where
  | automatic
  | given (value : Option String)
  deriving DecidableEq, Repr

def usualModel : String := "ai/smollm2:360M-Q4_K_M"

def usualAddress : String := "http://localhost:12434/engines/v1"

/-- One tenth. -/
def usualTemperature : Quantity := .real (Binary64.ofDecimal false 1 (-1))

/-- The longest answer that is asked for. -/
def usualMaxTokens : Quantity := .whole 4000

/-- Half a minute. -/
def usualTimeout : Quantity := .real (Binary64.ofDecimal false 30 0)

/-- What a caller chooses about a runner. -/
structure Options where
  model : Option String := none
  address : Preference := .automatic
  key : Preference := .automatic
  temperature : Option Quantity := some usualTemperature
  maxTokens : Option Quantity := some usualMaxTokens
  timeout : Option Quantity := some usualTimeout
  deriving DecidableEq, Repr

/-- A model that can be asked. -/
structure Runner where
  model : String
  address : Option String
  key : Option String
  temperature : Option Quantity
  maxTokens : Option Quantity
  timeout : Option Quantity
  deriving DecidableEq, Repr

def nonEmpty (value : Option String) : Option String :=
  value.filter (· != "")

/-- The starts of the names of variables, the one that counts more first. -/
def variablePrefixes : List String := ["STACKMAP_LLM_", "MODEL_RUNNER_"]

/-- The first variable with the given ending that is not empty. -/
def environmentValue? (environment : List (String × String)) (ending : String) : Option String :=
  variablePrefixes.findSome? fun start => nonEmpty (environment.lookup (start ++ ending))

/-- The address at which a choice wants the model to be asked, if it wants any. -/
def Options.wishedAddress (options : Options) (environment : List (String × String)) :
    Option String :=
  match options.address with
  | .automatic => some ((environmentValue? environment "BASE_URL").getD usualAddress)
  | .given value => value

/-- The runner for a choice. Addresses on other machines are refused. -/
def Runner.ofOptions (environment : List (String × String)) (options : Options) :
    Except Net.AddressRefusal Runner := do
  let named := ((nonEmpty options.model).or (environmentValue? environment "MODEL")).getD usualModel
  let address ← (options.wishedAddress environment).mapM Net.ensureLocal
  let key :=
    match options.key with
    | .automatic => environmentValue? environment "API_KEY"
    | .given value => value
  return ⟨named, address, key, options.temperature, options.maxTokens, options.timeout⟩

/-! ## Calls -/

/-- What goes over the net. -/
structure Call where
  url : String
  method : String
  headers : List (String × String)
  body : String
  timeout : Quantity
  deriving DecidableEq, Repr

inductive Reply where
  | answered (octets : List UInt8)
  | refused (status : Int) (reason : String) (octets : List UInt8)
  | unreachable (reason : String)
  | timedOut
  /-- The exchange broke off in some other way. -/
  | brokenOff (message : String)
  deriving DecidableEq, Repr

inductive Failure where
  | noAddress
  /-- What would be sent holds a number with too many digits to be written. -/
  | unwritable
  | unknownScheme (url : String)
  /-- The address cannot be taken apart. -/
  | malformed (fault : Net.UrlFault)
  | refused (status : Int) (detail : String)
  | unreachable (endpoint reason : String)
  | timedOut (limit : Quantity)
  | brokenOff (message : String)
  | invalidAnswer
  | unexpectedAnswer
  | emptyAnswer
  | readerLimit (fault : Json.Fault)
  deriving DecidableEq, Repr

def Failure.message : Failure → String
  | .noAddress => "LLM runner has no base_url configured"
  | .unwritable => Reading.unwritableText
  | .unknownScheme url => s!"unknown url type: {Text.Quoted.quote url}"
  | .malformed fault => fault.message
  | .refused status detail => s!"LLM runner failed with status {status}: {detail}"
  | .unreachable endpoint reason => s!"LLM runner unreachable at {endpoint}: {reason}"
  | .timedOut limit => s!"LLM runner timed out after {limit.generalText}s"
  | .brokenOff message => message
  | .invalidAnswer => "LLM runner returned invalid JSON"
  | .unexpectedAnswer => "LLM runner returned an unexpected payload"
  | .emptyAnswer => "LLM runner returned an empty response"
  | .readerLimit fault => fault.message ""

/-- The address without blanks, pointed brackets and a leading label around it. -/
def unwrap (url : String) : String :=
  let trimmed := Text.trimList url.toList
  let bare :=
    if trimmed.head? = some '<' && trimmed.getLast? = some '>' then
      Text.trimList (trimmed.drop 1).dropLast
    else trimmed
  String.ofList
    (if "URL:".toList.isPrefixOf bare then Text.trimList (bare.drop 4) else bare)

/-- An address without its fragment, which begins with the last hash. -/
def withoutFragment (url : List Char) : List Char :=
  if url.contains '#' then ((url.reverse.dropWhile (· != '#')).drop 1).reverse else url

/-- Whether an address begins with a scheme. A colon in its fragment ends none. -/
def hasScheme (url : String) : Bool :=
  let address := withoutFragment url.toList
  let scheme := address.takeWhile fun character => character != ':' && character != '/'
  !scheme.isEmpty && (address.drop scheme.length).head? == some ':'

def Runner.payload (runner : Runner) (messages : List Message) (wantsObject : Bool) : Json :=
  let optional (key : RawText) (quantity : Option Quantity) : List (RawText × Json) :=
    (quantity.map fun value => (key, value.toJson)).toList
  let named : List (RawText × Json) :=
    [("model", .string runner.model), ("messages", Json.ofList Message.toJson messages)]
  let format : List (RawText × Json) :=
    if wantsObject then [("response_format", .object [("type", .string "json_object")])] else []
  .object (named ++ optional "temperature" runner.temperature
    ++ optional "max_tokens" runner.maxTokens ++ format)

def endpoint (address : String) : String :=
  address ++ "/chat/completions"

/-- The call that asks the model. First the body is written, then the address is taken apart. -/
def Runner.call (runner : Runner) (messages : List Message) (wantsObject : Bool) :
    Except Failure Call := do
  let some address := nonEmpty runner.address | throw .noAddress
  let payload := runner.payload messages wantsObject
  if !payload.isWritable then throw .unwritable
  let url := unwrap (endpoint address)
  if !hasScheme url then throw (.unknownScheme url)
  let _ ← (Net.host? url).mapError .malformed
  let authorization :=
    ((nonEmpty runner.key).map fun key => ("authorization", s!"Bearer {key}")).toList
  return { url := url
           method := "POST"
           headers := authorization ++ [("content-type", "application/json")]
           body := payload.compact
           timeout := (runner.timeout.filter fun limit => !limit.isZero).getD usualTimeout }

/-- The text of the first choice in an answer; empty when there is none. -/
def answerText (fields : List (RawText × Json)) : RawText :=
  match (fields.lookup ("choices" : RawText)).bind Json.array? with
  | some (.object choice :: _) =>
    let content :=
      ((choice.lookup ("message" : RawText)).bind (Json.field? "content")).bind Json.string?
    (content.or ((choice.lookup ("text" : RawText)).bind Json.string?)).getD ""
  | _ => ""

def readAnswer (octets : List UInt8) : Except Failure (List (RawText × Json)) :=
  match Text.Utf8.decode octets with
  | .error _ => .error .invalidAnswer
  | .ok text =>
    match Json.read text with
    | .error (.grammar _ _) => .error .invalidAnswer
    | .error fault => .error (.readerLimit fault)
    | .ok (.object fields) => .ok fields
    | .ok _ => .error .unexpectedAnswer

/-- What the model says, by what came back for a call. `asked` is the address as it was put
together. -/
def answer (asked : String) (call : Call) : Reply → Except Failure RawText
  | .refused status reason octets =>
    let detail := Text.trim (Text.Utf8.decodeSkipping octets)
    .error (.refused status (if detail == "" then reason else detail))
  | .unreachable reason => .error (.unreachable asked reason)
  | .timedOut => .error (.timedOut call.timeout)
  | .brokenOff message => .error (.brokenOff message)
  | .answered octets => do
    let fields ← readAnswer octets
    let text := answerText fields
    if text == "" then throw .emptyAnswer
    return text.trim

/-- The messages of one question, with an optional word to the system. -/
def question (prompt : RawText) (system : Option RawText) : List Message :=
  ((system.filter (· != .proper "")).map fun text => (⟨"system", text⟩ : Message)).toList
    ++ [⟨"user", prompt⟩]

def Runner.chat (runner : Runner) (messages : List Message) (wantsObject : Bool)
    (exchange : Call → Reply) : List Call × Except Failure RawText :=
  match runner.call messages wantsObject with
  | .error failure => ([], .error failure)
  | .ok call =>
    ([call], answer (endpoint (runner.address.getD "")) call (exchange call))

end ModuleAtlas.Model
