import ModuleAtlas.Catalog.Entry
import ModuleAtlas.Package.Manager
import ModuleAtlas.Package.Manifest

/-!
# Technologies of a project

The technologies of a project, its type, and the commands that run it.
-/

namespace ModuleAtlas

structure Technology where
  name : String
  version : RawText
  category : String
  role : String
  deriving DecidableEq, Repr

def Technology.toJson (technology : Technology) : Json :=
  .object
    [("name", .string technology.name), ("version", .string technology.version),
      ("category", .string technology.category), ("role", .string technology.role)]

/-- A command to run, with what it does. -/
structure Command where
  command : String
  description : String
  deriving DecidableEq, Repr

def Command.toJson (command : Command) : Json :=
  .object
    [("command", .string command.command), ("description", .string command.description)]

namespace Stack

structure Known where
  package : String
  name : String
  category : String
  role : String

/-- The technologies that are known, in the order in which they are listed. -/
def known : List Known :=
  [⟨"react", "React", "Frontend", "framework"⟩, ⟨"next", "Next.js", "Fullstack", "framework"⟩,
    ⟨"express", "Express", "Backend", "framework"⟩, ⟨"mongoose", "Mongoose", "Database", "database"⟩,
    ⟨"vite", "Vite", "Build", "build-tool"⟩, ⟨"webpack", "Webpack", "Build", "build-tool"⟩,
    ⟨"jest", "Jest", "Testing", "test-tool"⟩, ⟨"vitest", "Vitest", "Testing", "test-tool"⟩,
    ⟨"mocha", "Mocha", "Testing", "test-tool"⟩]

/-- The build tools that a file in the root gives away, by how its name begins. -/
def giveaways : List (String × Known) :=
  [("vite.config.", ⟨"vite", "Vite", "Build", "build-tool"⟩),
    ("webpack.config.", ⟨"webpack", "Webpack", "Build", "build-tool"⟩)]

/-- Stands for the version of a technology that is not declared. -/
def undeclaredVersion : String := "detected"

def declared (dependencies : List (RawText × RawText)) : List Technology :=
  known.filterMap fun entry =>
    (dependencies.lookup (entry.package : RawText)).map fun version =>
      ⟨entry.name, version, entry.category, entry.role⟩

/-- The technologies so far, and one that a file gives away, unless it is among them. -/
def addGiveaway (dependencies : List (RawText × RawText)) (markers : List String)
    (stack : List Technology) (giveaway : String × Known) : List Technology :=
  let entry := giveaway.2
  if stack.any fun technology => technology.name == entry.name then stack
  else if markers.any fun marker => Text.beginsWith marker giveaway.1 then
    let version := (dependencies.lookup (entry.package : RawText)).getD undeclaredVersion
    stack ++ [⟨entry.name, version, entry.category, entry.role⟩]
  else stack

def detect (manifest : Option Manifest) (markers : List String) : List Technology :=
  let dependencies := Manifest.dependenciesOf manifest
  giveaways.foldl (addGiveaway dependencies markers) (declared dependencies)

def scriptPurposes : List (String × String) :=
  [("dev", "Start development server"), ("start", "Start production server"),
    ("build", "Build for production"), ("test", "Run tests")]

/-- The commands to start with: the scripts that there are, or else the installation. -/
def commands (manifest : Option Manifest) (lockFiles : List String) : List Command :=
  let manager := Package.managerOf lockFiles
  let present := scriptPurposes.filter fun entry => Manifest.hasScript manifest entry.1
  if present.isEmpty then [⟨Package.installCommand manager, "Install dependencies"⟩]
  else present.map fun entry => ⟨Package.scriptCommand entry.1 manager, entry.2⟩

end Stack

inductive ProjectType where
  | nextFullstack
  | mernStack
  | expressMongo
  | reactFrontend
  | expressBackend
  | plain
  deriving DecidableEq, Repr

namespace ProjectType

def name : ProjectType → String
  | .nextFullstack => "Next.js Fullstack Application"
  | .mernStack => "MERN Stack Application"
  | .expressMongo => "Express + MongoDB Backend"
  | .reactFrontend => "React Frontend Application"
  | .expressBackend => "Express.js Backend"
  | .plain => "JavaScript Project"

/-- The type of a project, from its files and what it depends on. -/
def determine (table : Table) (manifest : Option Manifest) : ProjectType :=
  let hasServer := table.hasKind .server
  let hasComponent := table.hasKind .component
  let hasModel := table.hasKind .model
  if (Manifest.dependenciesOf manifest).any fun entry => entry.1 == "next" then .nextFullstack
  else if hasServer && hasComponent && hasModel then .mernStack
  else if hasServer && hasModel then .expressMongo
  else if hasComponent then .reactFrontend
  else if hasServer then .expressBackend
  else .plain

end ProjectType

def Table.countKind (table : Table) (kind : FileKind) : Nat :=
  (table.analyses.filter fun entry => entry.kind == kind).length

def projectSummary (projectType : String) (table : Table) (stack : List Technology)
    (architecture : String) : String :=
  let components := table.countKind .component
  let routes := (table.analyses.flatMap fun entry => entry.routes).length
  let models := table.countKind .model
  let names := String.intercalate ", " (stack.map (·.name))
  let parts :=
    [s!"This is a {projectType} with {table.size} JavaScript/TypeScript files."]
      ++ (if components = 0 then [] else [s!"Contains {components} React components."])
      ++ (if routes = 0 then [] else [s!"Defines {routes} API routes."])
      ++ (if models = 0 then [] else [s!"Uses {models} Mongoose models."])
      ++ (if stack.isEmpty then [] else [s!"Built with {names}."])
      ++ [s!"Follows {architecture} architecture pattern."]
  String.intercalate " " parts

end ModuleAtlas
