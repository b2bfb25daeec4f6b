import ModuleAtlas.Report.Basic

/-!
# Questions to a model

The questions about a project that are put to a model. A template is a text with slots, and each slot
takes a value of the report.
-/

namespace ModuleAtlas

/-- A message of a conversation with a model. -/
structure Message where
  role : String
  content : RawText
  deriving DecidableEq, Repr

namespace Message

def toJson (message : Message) : Json :=
  .object [("role", .string message.role), ("content", .string message.content)]

end Message

namespace Prompt

/-! ## Templates -/

/-- A part of a template. -/
inductive Fragment where
  | text (content : String)
  | slot (name : String)
  deriving DecidableEq, Repr

/-- The characters before a pair of closing braces, and those behind it. -/
def untilClosing : List Char → Option (List Char × List Char)
  | '\x7d' :: '\x7d' :: rest => some ([], rest)
  | character :: rest => (untilClosing rest).map fun parts => (character :: parts.1, parts.2)
  | [] => none

def consText (characters : List Char) (fragments : List Fragment) : List Fragment :=
  if characters.isEmpty then fragments
  else .text (String.ofList characters.reverse) :: fragments

/-- The fragments of a template. `pending` holds the text read so far, last character first. -/
def fragments : Nat → List Char → List Char → List Fragment
  | 0, pending, _ => consText pending []
  | _, pending, [] => consText pending []
  | fuel + 1, pending, '\x7b' :: '\x7b' :: rest =>
    match untilClosing rest with
    | some (name, behind) =>
      consText pending (.slot (String.ofList (Text.trimList name)) :: fragments fuel [] behind)
    | none => fragments fuel ('\x7b' :: pending) ('\x7b' :: rest)
  | fuel + 1, pending, character :: rest => fragments fuel (character :: pending) rest

def fragmentsOf (characters : List Char) : List Fragment :=
  fragments (characters.length + 1) [] characters

/-- The template that a text spells: names between double braces are slots, and one line break at the
end is left out. -/
def parse (text : String) : List Fragment :=
  let characters := Text.unifyLineEndsList text.toList
  fragmentsOf (if characters.getLast? = some '\n' then characters.dropLast else characters)

/-- The text of a template. A slot without a value stays empty. -/
def fill (values : List (String × RawText)) (template : List Fragment) : RawText :=
  RawText.join "" (template.map fun fragment =>
    match fragment with
    | .text content => content
    | .slot name => (values.lookup name).getD "")

/-! ## The questions -/

def systemText : String :=
  String.intercalate "\n"
    ["You are an expert software architect and code analyst specializing in JavaScript/Node.js "
        ++ "projects.",
      "",
      "Your task is to perform deep semantic analysis of codebases and provide actionable insights "
        ++ "about:",
      "- Project architecture and design patterns",
      "- Component relationships and data flow",
      "- API structure and endpoints",
      "- Security vulnerabilities and best practices",
      "- Performance optimization opportunities",
      "- Code quality and maintainability issues",
      "",
      "Always respond with valid JSON only, following the exact schema provided."]

/-- What is asked about projects with React. -/
def reactQuestions : List String :=
  ["Component composition and reusability",
    "State management patterns (useState, useContext, Redux, Zustand)",
    "Effect dependencies and cleanup",
    "Performance optimization opportunities (useMemo, useCallback, React.memo)",
    "Accessibility compliance", "Bundle size optimization"]

def serverQuestions : List String :=
  ["Route organization and middleware usage",
    "Database connection patterns and query optimization",
    "Error handling and logging strategies", "Security middleware and validation",
    "API design and RESTful principles", "Authentication and authorization patterns"]

def answerForm : String :=
  String.intercalate "\n"
    ["\x7b",
      "  \"semanticInsights\": \"Overall project analysis explaining architecture, purpose, and key "
        ++ "patterns\",",
      "  \"fileDescriptions\": \x7b",
      "    \"path/to/file.js\": \"Detailed explanation of this file's role and functionality\"",
      "  \x7d,",
      "  \"apiFlow\": \"Description of API endpoints, routes, middleware, and request/response "
        ++ "flow\",",
      "  \"componentFlow\": \"React/Vue component hierarchy, state management, and data flow "
        ++ "patterns\",",
      "  \"criticalIssues\": [",
      "    \x7b",
      "      \"type\": \"security|performance|architecture|bug\",",
      "      \"severity\": \"high|medium|low\",",
      "      \"description\": \"Clear description of the issue\",",
      "      \"file\": \"path/to/affected/file.js\",",
      "      \"recommendation\": \"Specific steps to resolve this issue\"",
      "    \x7d",
      "  ],",
      "  \"recommendations\": [",
      "    \x7b",
      "      \"category\": \"architecture|dependencies|performance|security|testing\",",
      "      \"priority\": \"high|medium|low\",",
      "      \"description\": \"What should be improved and why\",",
      "      \"implementation\": \"Concrete steps to implement this recommendation\"",
      "    \x7d",
      "  ],",
      "  \"missingDependencies\": [\"package-name\"],",
      "  \"frameworkInsights\": \"Framework-specific observations, best practices, and optimization "
        ++ "suggestions\"",
      "\x7d"]

/-- The start of the template that is used unless another one is given. Further questions follow it. -/
def usualText : String :=
  "Analyze this JavaScript/Node.js project and provide comprehensive insights:\n\n"
    ++ "PROJECT METADATA:\n- Name: \x7b\x7b project_name \x7d\x7d\n"
    ++ "- Type: \x7b\x7b project_type \x7d\x7d\n- File Count: \x7b\x7b file_count \x7d\x7d\n\n"
    ++ "TECHNOLOGY STACK:\n\x7b\x7b tech_stack \x7d\x7d\n\n"
    ++ "DEPENDENCY GRAPH:\n\x7b\x7b dependency_graph \x7d\x7d\n\n"
    ++ "RECOMMENDED COMMANDS:\n\x7b\x7b commands \x7d\x7d\n\n"
    ++ "FILE STRUCTURE:\n\x7b\x7b file_breakdown \x7d\x7d\n\n"
    ++ "EXISTING ISSUES DETECTED:\n\x7b\x7b static_issues \x7d\x7d\n\n"
    ++ "Please analyze and provide insights in this exact JSON format:\n" ++ answerForm ++ "\n"

/-- Further questions under a heading; without questions there is no heading. -/
def questionBlock (projects : String) (questions : List String) : String :=
  if questions.isEmpty then ""
  else
    s!"\nFor {projects} projects, also analyze:\n"
      ++ String.join (questions.map fun question => s!"- {question}\n")

/-! ## Values -/

def parenthesized (items : List String) : String :=
  "(" ++ String.intercalate ", " (items.map Text.Quoted.quote)
    ++ (if items.length = 1 then "," else "") ++ ")"

/-- The first items of a list. A negative count leaves that many out at the end. -/
def takeSigned {α : Type} (count : Int) (items : List α) : List α :=
  items.take (if 0 ≤ count then count.toNat else items.length - (-count).toNat)

/-- The most files that are described to a model. -/
def mostFiles : Int := 150

/-- Whether a technology of the stack has a name with one of the given parts. -/
def uses (stack : List Technology) (parts : List String) : Bool :=
  stack.any fun technology => parts.any (Text.contains (Text.lower technology.name))

/-- A request to a model, with what was found out on the way. -/
structure Request where
  messages : List Message
  usesReact : Bool
  usesServer : Bool
  truncated : Bool
  deriving DecidableEq, Repr

def values (report : Report) (files : List (String × Entry)) (react server : List String) :
    List (String × RawText) :=
  let name := Path.lastComponent report.provenance.projectPath
  let graph : Json := .object
    [("stats", report.graph.stats.toJson),
      ("edges", Json.ofList Graph.Edge.toJson report.graph.edges),
      ("patterns", report.patterns.toJson)]
  [("project_name", if name == "" then "Unknown" else name),
    ("project_type", report.projectType),
    ("file_count", Decimal.intText report.table.size),
    ("tech_stack", (Json.ofList Technology.toJson report.stack).pretty),
    ("dependency_graph", graph.pretty),
    ("commands", (Json.ofList Command.toJson report.commands).pretty),
    ("file_breakdown", (Report.breakdown files).pretty),
    ("static_issues", (Json.ofList Issue.toJson report.issues.all).pretty),
    ("react_questions", parenthesized react), ("node_questions", parenthesized server)]

/-- The question about a report: the text of a template that is given, or the usual one. -/
def body (slots : List (String × RawText)) (react server : List String) : Option String → RawText
  | some text => fill slots (parse text)
  | none =>
    fill slots (fragmentsOf usualText.toList)
      ++ (questionBlock "React" react ++ questionBlock "Node.js/Express" server : String)

def build (report : Report) (limit : Int) (template : Option String) : Request :=
  let usesReact := uses report.stack ["react"]
  let usesServer := uses report.stack ["node", "express"]
  let react := if usesReact then reactQuestions else []
  let server := if usesServer then serverQuestions else []
  let truncated := decide (limit < report.table.size)
  let files := if truncated then takeSigned limit report.table.entries else report.table.entries
  let text := body (values report files react server) react server template
  { messages := [⟨"system", systemText⟩, ⟨"user", text.trim⟩]
    usesReact := usesReact
    usesServer := usesServer
    truncated := truncated }

end Prompt

end ModuleAtlas
