import ModuleAtlas.Catalog.FileKind
import ModuleAtlas.Json.Value
import ModuleAtlas.Script.Record
import ModuleAtlas.Text.Blank

/-!
# Entries of the catalog

What is known about one source file, and tables of such entries.
-/

namespace ModuleAtlas

/-- A module that a file refers to, with the names that it binds. -/
structure Reference where
  source : String
  specifiers : List Script.Specifier := []
  deriving DecidableEq, Repr

def Reference.isRelative (reference : Reference) : Bool :=
  Text.beginsWith reference.source "."

/-- A request that a server answers. -/
structure Route where
  method : String
  path : String
  deriving DecidableEq, Repr

/-- The analysis of one source file. -/
structure Entry where
  path : String
  kind : FileKind
  summary : String
  imports : List Reference := []
  exports : List Script.Export := []
  functions : List String := []
  classes : List String := []
  routes : List Route := []
  schemas : List String := []
  components : List String := []
  error : Option String := none
  deriving DecidableEq, Repr

namespace Entry

def hasFailed (entry : Entry) : Bool :=
  entry.kind.isFailure

/-- The short account of a file that reports give. -/
def digest (entry : Entry) : Json :=
  .object
    [("kind", .string entry.kind.name), ("summary", .string entry.summary),
      ("imports", .nat entry.imports.length), ("exports", .nat entry.exports.length),
      ("functions", .nat entry.functions.length), ("components", .nat entry.components.length),
      ("routes", .nat entry.routes.length)]

end Entry

/-- Entries by their paths, in the order in which the paths were first given. -/
structure Table where
  entries : List (String × Entry) := []

namespace Table

/-- The table with one entry more: a known path keeps its place and takes the new entry. -/
def insert (table : Table) (entry : Entry) : Table :=
  ⟨Json.putField table.entries entry.path entry⟩

def ofList (entries : List Entry) : Table :=
  entries.foldl insert {}

def paths (table : Table) : List String :=
  table.entries.map (·.1)

def analyses (table : Table) : List Entry :=
  table.entries.map (·.2)

def size (table : Table) : Nat :=
  table.entries.length

def hasKind (table : Table) (kind : FileKind) : Bool :=
  table.analyses.any fun entry => entry.kind == kind

end Table

end ModuleAtlas
