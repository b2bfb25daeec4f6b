import ModuleAtlas.Catalog.Entry
import ModuleAtlas.Path
import ModuleAtlas.Script.Reading

/-!
# From records to entries

From the records of a script to its entry. Each record adds to at most one list of the entry, and the
lists together with the name of the file decide its kind.
-/

namespace ModuleAtlas

namespace Script.Record

/-- The members of an application that declare what it answers. -/
def routeMethods : List String := ["get", "post", "put", "delete", "patch"]

/-- The name by which applications are recognised. -/
def routeObject : String := "app"

/-- The name by which schemas are recognised. -/
def schemaObject : String := "mongoose"

/-- Stands for a route whose path is no plain text. -/
def unknownPath : String := "unknown"

/-- The letters of a word in upper case, for words of English letters. -/
def upperWord (word : String) : String :=
  String.ofList (word.toList.map Char.toUpper)

/-- Whether a variable with this name is a component when it holds a function. -/
def isComponentName (name : String) : Bool :=
  match name.toList with
  | [] => false
  | first :: _ => 'A' ≤ first && first ≤ 'Z'

def reference? : Record → Option Reference
  | .imported value => some ⟨value.source, value.specifiers⟩
  | _ => none

def export? : Record → Option Export
  | .exported value => some value
  | _ => none

def function? : Record → Option String
  | .declaredFunction name => some name
  | _ => none

def class? : Record → Option String
  | .declaredClass name => some name
  | _ => none

def component? : Record → Option String
  | .declaredVariable value =>
    if value.initializer = some "arrow_function" ∧ isComponentName value.name then some value.name
    else none
  | _ => none

def route? : Record → Option Route
  | .called value =>
    if value.constructed = false ∧ value.objectName = some routeObject
        ∧ value.propertyName ∈ routeMethods then
      some ⟨upperWord value.propertyName, value.firstArgument.getD unknownPath⟩
    else none
  | _ => none

def schema? : Record → Option String
  | .called value =>
    if value.propertyName = "Schema" ∧ value.objectName = some schemaObject then some schemaObject
    else none
  | _ => none

end Script.Record

namespace Entry

def kindOfName? (name : String) : Option FileKind :=
  if name == "package.json" then some .packageConfiguration
  else if Text.contains name "config" then some .configuration
  else if Text.contains name "test" || Text.contains name "spec" then some .test
  else none

/-- The kind of a file. What it does comes before its name, and its name before what it declares. -/
def kindOf (name : String) (routes : List Route)
    (schemas components functions classes : List String) : FileKind :=
  if !routes.isEmpty then .server
  else if !schemas.isEmpty then .model
  else if !components.isEmpty then .component
  else
    match kindOfName? name with
    | some kind => kind
    | none => if functions.isEmpty && classes.isEmpty then .unknown else .library

def summaryOf (kind : FileKind) (imports : List Reference) (functions classes : List String)
    (routes : List Route) (schemas components : List String) : String :=
  match kind with
  | .server => s!"Express server with {routes.length} routes, imports {imports.length} modules"
  | .component => s!"React component file with {components.length} components"
  | .model => s!"Mongoose model file with {schemas.length} schemas"
  | .library =>
    s!"JavaScript module with {functions.length} functions, {classes.length} classes"
  | other => s!"{other.name} file with {imports.length} imports"

def ofRecords (path : String) (records : List Script.Record) : Entry :=
  let imports := records.filterMap Script.Record.reference?
  let functions := records.filterMap Script.Record.function?
  let classes := records.filterMap Script.Record.class?
  let routes := records.filterMap Script.Record.route?
  let schemas := records.filterMap Script.Record.schema?
  let components := records.filterMap Script.Record.component?
  let kind := kindOf (Path.lastComponent path) routes schemas components functions classes
  { path := path
    kind := kind
    summary := summaryOf kind imports functions classes routes schemas components
    imports := imports
    exports := records.filterMap Script.Record.export?
    functions := functions
    classes := classes
    routes := routes
    schemas := schemas
    components := components }

def unparsed (path message : String) : Entry :=
  { path := path, kind := .unparsed, summary := "Failed to parse: " ++ message,
    error := some message }

def ofText (path extension text : String) : Entry :=
  match Script.records text extension with
  | .ok records => ofRecords path records
  | .error refusal => unparsed path refusal.message

def unreadable (path message : String) : Entry :=
  { path := path, kind := .unreadable, summary := "Unable to read file: " ++ message,
    error := some message }

end Entry

end ModuleAtlas
