import ModuleAtlas.Analysis.Basic
import ModuleAtlas.Service.Order

/-!
# The service

The service: what it answers to a request.
-/

namespace ModuleAtlas.Service

structure Request where
  method : String
  url : String
  body : Option Json := none

inductive Response where
  | answered (status : Nat) (body : Json)
  /-- The order does not have the right form. -/
  | invalid (complaints : List Complaint)

/-- What breaks the service off without an answer. -/
inductive Breakdown where
  | analysis (cause : Analysis.Breakdown)
  | trouble (trouble : Disk.Trouble)
  /-- The answer cannot be sent. -/
  | unsendable

/-- What the service can be asked for. -/
inductive Route where
  | health
  | analyze
  | insights
  | recommendations
  deriving DecidableEq, Repr

def routes : List (String × Route) :=
  [("/health", .health), ("/analyze", .analyze), ("/insights", .insights),
    ("/recommendations", .recommendations)]

def Route.method : Route → String
  | .health => "GET"
  | _ => "POST"

def pathOfUrl (url : String) : String :=
  String.ofList (url.toList.takeWhile fun character => character != '?' && character != '#')

/-- The route at a path. Slashes at the end make no difference. -/
def routeAt? (path : String) : Option Route :=
  let bare := String.ofList (Text.dropEndWhile (· == '/') path.toList)
  (routes.lookup path).or (if path == "/" then none else routes.lookup bare)

def refuse (status : Nat) (detail : String) : Response :=
  .answered status (.object [("detail", .string detail)])

def send (limits : Json.Limits) (document : Json) : Except Breakdown Response :=
  if document.isSendable limits.levels then .ok (.answered 200 document) else .error .unsendable

/-- The answer of a route from a report. A report that is nested too deeply to be copied is refused. -/
def Route.present (route : Route) (limits : Json.Limits) (report : Report) :
    Except Breakdown Response :=
  match route with
  | .analyze =>
    match (Analysis.Result.success report).document? limits with
    | none => .ok (refuse 400 "maximum recursion depth exceeded")
    | some document => send limits document
  | .insights =>
    send limits (.object [("success", .bool true),
      ("data", Json.ofList Report.Insight.toJson report.insights)])
  | .recommendations =>
    send limits (.object [("success", .bool true), ("data", report.recommendations)])
  | .health => send limits (.object [("status", .string "ok")])

def Route.fulfil (route : Route) (setting : Analysis.Setting) (order : Order) :
    Except Breakdown Response :=
  match setting.surroundings.expand order.path with
  | .error fault => .ok (refuse 400 fault.message)
  | .ok path => do
    let around := setting.surroundings
    let known ← (Disk.exists? around.disk (around.locate path)).mapError .trouble
    if !known then
      return refuse 404 s!"Project path not found: {order.path}"
    else
      let budget := order.timeout.map Quantity.real
      match (Analysis.run setting path budget order.enriched).outcome.1 with
      | .error cause => throw (.analysis cause)
      | .ok outcome =>
        match outcome.result with
        | .failure message => return refuse 400 message
        | .success report => route.present setting.limits report

def respond (setting : Analysis.Setting) (request : Request) : Except Breakdown Response :=
  match routeAt? (pathOfUrl request.url) with
  | none => .ok (refuse 404 "Not Found")
  | some route =>
    if request.method != route.method then .ok (refuse 405 "Method Not Allowed")
    else if route = .health then
      .ok (.answered 200 (.object [("status", .string "ok")]))
    else
      match Order.ofBody request.body with
      | .error complaints => .ok (.invalid complaints)
      | .ok order => route.fulfil setting order

end ModuleAtlas.Service
