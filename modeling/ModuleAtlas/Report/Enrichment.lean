import ModuleAtlas.Json.Limits
import ModuleAtlas.Json.Reader
import ModuleAtlas.Path
import ModuleAtlas.Text.LetterCase

/-!
# Prose in a reply

Prose about a project, and how it is read from the reply of a model. A reply holds one JSON object,
either between fences, or from its first opening to its last closing brace.
-/

namespace ModuleAtlas

structure Enrichment where
  source : String
  isBasic : Bool
  insights : RawText
  fileDescriptions : List (RawText × RawText) := []
  interfaceFlow : RawText := ""
  componentFlow : RawText := ""
  criticalIssues : List Json := []
  recommendations : List Json := []
  missingDependencies : List RawText := []
  frameworkInsights : RawText := ""
  remark : Option String := none
  deriving Repr

namespace Enrichment

def fields (enrichment : Enrichment) : List (RawText × Json) :=
  [("source", .string enrichment.source), ("basic_only", .bool enrichment.isBasic),
    ("semantic_insights", .string enrichment.insights),
    ("file_descriptions", .object (enrichment.fileDescriptions.map fun description =>
      (description.1, .string description.2))),
    ("api_flow", .string enrichment.interfaceFlow),
    ("component_flow", .string enrichment.componentFlow),
    ("critical_issues", .array enrichment.criticalIssues),
    ("recommendations", .array enrichment.recommendations),
    ("missing_dependencies", Json.ofList .string enrichment.missingDependencies),
    ("framework_insights", .string enrichment.frameworkInsights),
    ("message", Json.ofOption (fun remark : String => .string remark) enrichment.remark)]

def toJson (enrichment : Enrichment) : Json :=
  .object enrichment.fields

/-- Whether every part of the prose can be copied with so many calls under way at once. -/
def isCopied (calls : Nat) (enrichment : Enrichment) : Bool :=
  enrichment.fields.all fun field => decide (field.2.copyingCalls ≤ calls)

/-! ## Descriptions from names alone -/

/-- What files of an extension are called. -/
def extensionLabels : List (String × String) :=
  [(".js", "JavaScript file"), (".jsx", "JavaScript React file"), (".ts", "TypeScript file"),
    (".tsx", "TypeScript React file"), (".json", "Configuration file")]

def describeFile (path : String) : String :=
  let name := Path.fileName path
  let label := (extensionLabels.lookup (Text.lower (Path.extension name))).getD "File"
  s!"{label}: {name}"

def describeFiles (paths : List String) : List (String × String) :=
  paths.map fun path => (path, describeFile path)

/-! ## Replies -/

/-- Why a reply holds no prose. -/
inductive ReplyFault where
  /-- The text that should be an object is not one of the data format. -/
  | unreadable (text : RawText) (fault : Json.Fault)
  /-- The text is a document, but not an object. -/
  | notAnObject
  deriving DecidableEq, Repr

/-- The wording of a fault. Limits of the reader are told as they are. -/
def ReplyFault.message : ReplyFault → String
  | .unreadable text (.grammar complaint index) =>
    s!"Model response is not valid JSON: {Json.Fault.message text (.grammar complaint index)}"
  | .unreadable text fault => fault.message text
  | .notAnObject => "Model response must be a JSON object"

/-- Blanks around and within the marks of a fence. -/
def isBlank : Letter → Bool :=
  Letter.satisfies Text.isBlank

def fence : List Letter := ['\x60', '\x60', '\x60']

/-- What stands before the first line break from which only blanks lead to a fence. -/
def untilFence : List Letter → Option (List Letter)
  | [] => none
  | letter :: rest =>
    if letter = '\n' && fence.isPrefixOf (rest.dropWhile isBlank) then some []
    else (untilFence rest).map (letter :: ·)

/-- The text behind an opening fence, up to the next fence. The line of the opening fence holds
nothing but blanks; of several line breaks among the blanks the last one that works counts. -/
def fencedBody? (letters : List Letter) : Option (List Letter) :=
  let gap := letters.takeWhile isBlank
  let starts := (List.range gap.length).reverse.filter fun index => gap[index]? == some (.char '\n')
  starts.findSome? fun start => untilFence (letters.drop (start + 1))

def fenceLabel : List Letter := Json.plainLetters "json"

def dropLabel (letters : List Letter) : List Letter :=
  if fenceLabel.isPrefixOf letters then letters.drop fenceLabel.length else letters

def fenced? : List Letter → Option (List Letter)
  | [] => none
  | letter :: rest =>
    let here :=
      if fence.isPrefixOf (letter :: rest) then
        fencedBody? (dropLabel ((letter :: rest).drop fence.length))
      else none
    match here with
    | some body => some body
    | none => fenced? rest

/-- The text from the first opening to the last closing brace. -/
def braced? (letters : List Letter) : Option (List Letter) :=
  let started := letters.dropWhile (· != .char '\x7b')
  let ended := Text.dropEndWhile (· != .char '\x7d') started
  if ended.isEmpty then none else some ended

/-- The text of a reply that should be an object. -/
def candidate (reply : RawText) : RawText :=
  RawText.ofLetters (((fenced? reply.letters).or (braced? reply.letters)).getD reply.letters)

def readReply (reply : RawText) : Except ReplyFault (List (RawText × Json)) :=
  let text := candidate reply
  match Json.read text with
  | .error fault => .error (.unreadable text fault)
  | .ok (.object fields) => .ok fields
  | .ok _ => .error .notAnObject

/-- The text under a key; empty for anything else. -/
def textAt (fields : List (RawText × Json)) (key : RawText) : RawText :=
  ((fields.lookup key).bind Json.string?).getD ""

/-- The items of the array under a key; none for anything else. -/
def itemsAt (fields : List (RawText × Json)) (key : RawText) : List Json :=
  ((fields.lookup key).bind Json.array?).getD []

def objectsAt (fields : List (RawText × Json)) (key : RawText) : List Json :=
  (itemsAt fields key).filter fun item => item.object?.isSome

/-- The fields of the object under a key; none for anything else. -/
def membersAt (fields : List (RawText × Json)) (key : RawText) : List (RawText × Json) :=
  ((fields.lookup key).bind Json.object?).getD []

def ofReply (fields : List (RawText × Json)) : Enrichment :=
  { source := "llm"
    isBasic := false
    insights := textAt fields "semanticInsights"
    fileDescriptions := (membersAt fields "fileDescriptions").map fun field =>
      (field.1, field.2.plain)
    interfaceFlow := textAt fields "apiFlow"
    componentFlow := textAt fields "componentFlow"
    criticalIssues := objectsAt fields "criticalIssues"
    recommendations := objectsAt fields "recommendations"
    missingDependencies := (itemsAt fields "missingDependencies").map Json.plain
    frameworkInsights := textAt fields "frameworkInsights" }

end Enrichment

end ModuleAtlas
