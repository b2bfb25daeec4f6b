import ModuleAtlas.Graph.Cycles

/-!
# Patterns in a graph

What the shape of a graph tells: files that nothing imports, files with many connections, directories
with several files, and cycles.
-/

namespace ModuleAtlas.Graph

/-- A file that nothing imports. -/
structure EntryPoint where
  file : String
  kind : FileKind
  outgoing : Nat
  deriving DecidableEq, Repr

/-- A file with many connections. -/
structure Hub where
  file : String
  kind : FileKind
  connections : Nat
  deriving DecidableEq, Repr

/-- A directory with several files. -/
structure Cluster where
  directory : String
  size : Nat
  kinds : List FileKind
  deriving DecidableEq, Repr

/-- A closed walk over files: the first file is repeated at the end. -/
structure Cycle where
  files : List String
  length : Nat
  deriving DecidableEq, Repr

/-- Everything that the shape of a graph tells. -/
structure Patterns where
  entryPoints : List EntryPoint := []
  hubs : List Hub := []
  clusters : List Cluster := []
  cycles : List Cycle := []
  deriving Repr

/-- A hub has more connections than this. -/
def hubThreshold : Int := 3

def outDegree (edges : List Edge) (id : String) : Nat :=
  (edges.filter fun edge => edge.origin == id).length

def inDegree (edges : List Edge) (id : String) : Nat :=
  (edges.filter fun edge => edge.target == id).length

/-- The number of ends of edges at a node. -/
def degree (edges : List Edge) (id : String) : Nat :=
  outDegree edges id + inDegree edges id

def entryPoints (graph : Graph) : List EntryPoint :=
  (graph.nodes.filter fun node => !(graph.edges.any fun edge => edge.target == node.id)).map
    fun node => ⟨node.path, node.kind, outDegree graph.edges node.id⟩

/-- The files with more connections than the threshold, those with most first. -/
def hubs (graph : Graph) (threshold : Int) : List Hub :=
  let ranked := graph.nodes.map fun node =>
    (⟨node.path, node.kind, degree graph.edges node.id⟩ : Hub)
  (ranked.filter fun hub => threshold < (hub.connections : Int)).mergeSort
    fun left right => decide (right.connections ≤ left.connections)

/-- The directory of a node, a point for the root. -/
def directoryOf (node : Node) : String :=
  let directory := Path.directory (Path.slashed node.path)
  if directory == "" then "." else directory

/-- Puts a node to the others of its directory. -/
def addToGroup (groups : List (String × List Node)) (node : Node) : List (String × List Node) :=
  let members := (groups.lookup (directoryOf node)).getD []
  Json.putField groups (directoryOf node) (members ++ [node])

/-- The directories with more than one file, in the order of their first files. -/
def clusters (graph : Graph) : List Cluster :=
  ((graph.nodes.foldl addToGroup []).filter fun group => decide (1 < group.2.length)).map
    fun group => ⟨group.1, group.2.length, (group.2.map (·.kind)).eraseDups⟩

def cycles (graph : Graph) : Except UnknownNode (List Cycle) := do
  let paths := pathsOf graph.nodes
  let walks ← closedWalks graph
  return walks.map fun walk =>
    let files := walk.filterMap fun id => paths.lookup id
    ⟨files, files.length - 1⟩

def patterns (graph : Graph) : Except UnknownNode Patterns := do
  let cycles ← cycles graph
  return ⟨entryPoints graph, hubs graph hubThreshold, clusters graph, cycles⟩

/-! ## As documents -/

def EntryPoint.toJson (point : EntryPoint) : Json :=
  .object
    [("file", .string point.file), ("kind", .string point.kind.name),
      ("outgoing_connections", .nat point.outgoing)]

def Hub.toJson (hub : Hub) : Json :=
  .object
    [("file", .string hub.file), ("kind", .string hub.kind.name),
      ("connections", .nat hub.connections)]

def Cluster.toJson (cluster : Cluster) : Json :=
  .object
    [("directory", .string cluster.directory), ("file_count", .nat cluster.size),
      ("kinds", Json.strings (cluster.kinds.map (·.name)))]

def Cycle.toJson (cycle : Cycle) : Json :=
  .object [("files", Json.strings cycle.files), ("length", .nat cycle.length)]

def Patterns.toJson (patterns : Patterns) : Json :=
  .object
    [("entry_points", Json.ofList EntryPoint.toJson patterns.entryPoints),
      ("hubs", Json.ofList Hub.toJson patterns.hubs),
      ("clusters", Json.ofList Cluster.toJson patterns.clusters),
      ("cycles", Json.ofList Cycle.toJson patterns.cycles)]

end ModuleAtlas.Graph
