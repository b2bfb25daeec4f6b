import ModuleAtlas.Catalog.Entry
import ModuleAtlas.Graph.Resolution
import ModuleAtlas.Text.LetterCase

/-!
# The graph of imports

The graph of the files of a project, with an edge for every import of one file by another.
-/

namespace ModuleAtlas

/-- The identity of a file in a graph: letter case and the direction of slashes make no difference. -/
def nodeId (path : String) : String :=
  Text.lower (Path.slashed path)

namespace Graph

structure Node where
  id : String
  label : String
  kind : FileKind
  path : String
  imports : Nat
  exports : Nat
  deriving DecidableEq, Repr

structure Edge where
  origin : String
  target : String
  source : String
  form : String := "import"
  deriving DecidableEq, Repr

structure Stats where
  totalFiles : Nat
  totalConnections : Nat
  isolatedFiles : Nat
  deriving DecidableEq, Repr

namespace Node

def ofEntry (path : String) (entry : Entry) : Node :=
  { id := nodeId path
    label := Path.fileName (Path.slashed path)
    kind := entry.kind
    path := path
    imports := entry.imports.length
    exports := entry.exports.length }

def toJson (node : Node) : Json :=
  .object
    [("id", .string node.id), ("label", .string node.label), ("kind", .string node.kind.name),
      ("path", .string node.path), ("imports", .nat node.imports), ("exports", .nat node.exports)]

end Node

def Edge.toJson (edge : Edge) : Json :=
  .object
    [("from", .string edge.origin), ("to", .string edge.target), ("type", .string edge.form),
      ("source", .string edge.source)]

def Stats.toJson (stats : Stats) : Json :=
  .object
    [("total_files", .nat stats.totalFiles), ("total_connections", .nat stats.totalConnections),
      ("isolated_files", .nat stats.isolatedFiles)]

end Graph

structure Graph where
  nodes : List Graph.Node
  edges : List Graph.Edge
  stats : Graph.Stats
  deriving Repr

namespace Graph

def ids (graph : Graph) : List String :=
  graph.nodes.map (·.id)

def fields (graph : Graph) : List (RawText × Json) :=
  [("nodes", Json.ofList Node.toJson graph.nodes), ("edges", Json.ofList Edge.toJson graph.edges),
    ("stats", graph.stats.toJson)]

/-! ## Construction -/

/-- The nodes so far and the node of one more file, unless its identity is taken. -/
def addNode (nodes : List Node) (file : String × Entry) : List Node :=
  if nodes.any fun node => node.id == nodeId file.1 then nodes
  else nodes ++ [Node.ofEntry file.1 file.2]

/-- The nodes of a table: one for each identity, from the first file that has it. -/
def nodesOf (table : Table) : List Node :=
  table.entries.foldl addNode []

/-- The edges of the imports of one file. Imports that are not resolved, or that lead to no file of
the table, have none. -/
def edgesOfImports {ε : Type} (resolve : String → String → Except ε (Option String))
    (ids : List String) (path : String) : List Reference → Except ε (List Edge)
  | [] => .ok []
  | reference :: rest => do
    let resolved ← resolve reference.source path
    let others ← edgesOfImports resolve ids path rest
    match resolved with
    | none => return others
    | some file =>
      if ids.contains (nodeId file) then
        return ⟨nodeId path, nodeId file, reference.source, "import"⟩ :: others
      else return others

/-- The edges of all files, in the order of the files and of their imports. -/
def edgesOf {ε : Type} (resolve : String → String → Except ε (Option String))
    (ids : List String) : List (String × Entry) → Except ε (List Edge)
  | [] => .ok []
  | (path, entry) :: rest => do
    let own ← edgesOfImports resolve ids path entry.imports
    let others ← edgesOf resolve ids rest
    return own ++ others

def statsOf (nodes : List Node) (edges : List Edge) : Stats :=
  let touched := edges.map (·.origin) ++ edges.map (·.target)
  ⟨nodes.length, edges.length, (nodes.filter fun node => !touched.contains node.id).length⟩

/-- The graph of a table, given the file that each import of a file means. -/
def build {ε : Type} (resolve : String → String → Except ε (Option String)) (table : Table) :
    Except ε Graph := do
  let nodes := nodesOf table
  let edges ← edgesOf resolve (nodes.map (·.id)) table.entries
  return ⟨nodes, edges, statsOf nodes edges⟩

end Graph

end ModuleAtlas
