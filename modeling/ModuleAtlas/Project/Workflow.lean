import ModuleAtlas.Project.Stack

/-!
# Workflows

How an application of a certain architecture works, is set up and is deployed.
-/

namespace ModuleAtlas

structure SetupStep where
  order : Nat
  action : String
  command : String
  description : String
  deriving DecidableEq, Repr

def SetupStep.toJson (step : SetupStep) : Json :=
  .object
    [("order", .nat step.order), ("action", .string step.action), ("command", .string step.command),
      ("description", .string step.description)]

/-- A place to deploy an application to. -/
structure Deployment where
  platform : String
  reason : String
  steps : List String
  deriving DecidableEq, Repr

def Deployment.toJson (deployment : Deployment) : Json :=
  .object
    [("platform", .string deployment.platform), ("reason", .string deployment.reason),
      ("steps", Json.strings deployment.steps)]

inductive Architecture where
  | next
  | mern
  | expressMongo
  | express
  | react
  | generic
  deriving DecidableEq, Repr

namespace Architecture

def name : Architecture → String
  | .next => "Next.js Fullstack"
  | .mern => "MERN Stack"
  | .expressMongo => "Express + MongoDB Backend"
  | .express => "Express.js API"
  | .react => "React Frontend"
  | .generic => "JavaScript Project"

end Architecture

/-- How an application works, is set up and is deployed. -/
structure Workflow where
  architecture : Architecture
  description : String
  flowSteps : List String
  summary : String
  keyFiles : List String
  deployments : List Deployment
  setupSteps : List SetupStep := []
  flags : List (String × Bool) := []
  deriving Repr

namespace Workflow

def backendDeployment : Deployment :=
  ⟨"Railway/Render", "Good for Node.js backends with database",
    ["Set environment variables", "Connect MongoDB Atlas"]⟩

def ofArchitecture (flags : List (String × Bool)) : Architecture → Workflow
  | .next =>
    { architecture := .next
      description := "Full-stack React application with server-side rendering"
      flowSteps :=
        ["Browser Request", "Next.js Router", "Page Component", "API Routes (if needed)",
          "Database (if connected)", "Server-Side Rendering", "Response to Browser"]
      summary := "Request → Next Router → Page/API Route → SSR/Data Fetch → Response"
      keyFiles :=
        ["pages/_app.js - App wrapper", "pages/index.js - Home page",
          "pages/api/ - API endpoints", "components/ - React components"]
      deployments :=
        [⟨"Vercel", "Optimized for Next.js applications",
          ["Connect GitHub repo", "Auto-deploy on push"]⟩]
      flags := flags }
  | .mern =>
    { architecture := .mern
      description := "MongoDB, Express, React, Node.js full-stack application"
      flowSteps :=
        ["React Frontend", "HTTP Request (Axios/Fetch)", "Express Router", "Controller Logic",
          "Mongoose Model", "MongoDB Database", "JSON Response", "React State Update"]
      summary :=
        "React Component → API Call → Express Route → Controller → Mongoose Model"
          ++ " → MongoDB → Response → State Update"
      keyFiles :=
        ["server.js - Express server", "routes/ - API endpoints", "models/ - Mongoose schemas",
          "src/components/ - React components"]
      deployments := [backendDeployment]
      flags := flags }
  | .expressMongo =>
    { architecture := .expressMongo
      description := "RESTful API server with MongoDB database"
      flowSteps :=
        ["Client Request", "Express Middleware", "Route Handler", "Controller Logic",
          "Mongoose Model", "MongoDB Operation", "JSON Response"]
      summary := "Request → Middleware → Route → Controller → Model → Database → Response"
      keyFiles :=
        ["server.js - Main server file", "routes/ - API routes", "models/ - Database models",
          "middleware/ - Custom middleware"]
      deployments := [backendDeployment]
      flags := flags }
  | .express =>
    { architecture := .express
      description := "RESTful API server built with Express.js"
      flowSteps :=
        ["HTTP Request", "Express Middleware", "Route Handler", "Business Logic",
          "Data Processing", "JSON Response"]
      summary := "Request → Middleware → Route Handler → Business Logic → Response"
      keyFiles :=
        ["server.js - Express server", "routes/ - API endpoints",
          "controllers/ - Business logic"]
      deployments :=
        [⟨"Railway/Render", "Good for Node.js API servers",
          ["Set environment variables", "Deploy from GitHub"]⟩]
      flags := flags }
  | .react =>
    { architecture := .react
      description := "Single-page application built with React"
      flowSteps :=
        ["User Interaction", "Event Handler", "State Update", "Component Re-render",
          "API Calls (if needed)", "UI Update"]
      summary :=
        "User Input → Event Handler → State Change → Re-render → API Call → UI Update"
      keyFiles :=
        ["src/App.js - Main component", "src/components/ - React components",
          "src/hooks/ - Custom hooks", "public/index.html - Entry point"]
      deployments :=
        [⟨"Netlify", "Great for static React apps",
          ["Build with npm run build", "Deploy build folder"]⟩]
      flags := flags }
  | .generic =>
    { architecture := .generic
      description := "General JavaScript application or library"
      flowSteps :=
        ["Entry Point", "Module Loading", "Function Execution", "Data Processing",
          "Output/Export"]
      summary := "Entry Point → Module Import → Function Execution → Data Processing → Output"
      keyFiles :=
        ["index.js - Entry point", "src/ - Source code", "package.json - Configuration"]
      deployments :=
        [⟨"GitHub Pages", "Simple deployment for static sites",
          ["Enable GitHub Pages", "Push to gh-pages branch"]⟩]
      flags := flags }

/-- What speaks for an architecture. -/
structure Signals where
  hasExpress : Bool
  hasReact : Bool
  hasNext : Bool
  hasMongoose : Bool
  hasBuildTool : Bool
  deriving DecidableEq, Repr

def Signals.ofProject (stack : List Technology) (table : Table) : Signals :=
  let named (name : String) : Bool :=
    stack.any fun technology => Text.lower technology.name == name
  { hasExpress := named "express" || table.hasKind .server
    hasReact := named "react" || table.hasKind .component
    hasNext := named "next.js" || named "next"
    hasMongoose := named "mongoose" || table.hasKind .model
    hasBuildTool := stack.any fun technology => technology.role == "build-tool" }

def Signals.flags (signals : Signals) : List (String × Bool) :=
  [("has_express", signals.hasExpress), ("has_react", signals.hasReact),
    ("has_next", signals.hasNext), ("has_mongoose", signals.hasMongoose),
    ("has_build_tool", signals.hasBuildTool)]

def Signals.architecture (signals : Signals) : Architecture :=
  if signals.hasNext then .next
  else if signals.hasExpress && signals.hasReact && signals.hasMongoose then .mern
  else if signals.hasExpress && signals.hasMongoose then .expressMongo
  else if signals.hasExpress then .express
  else if signals.hasReact then .react
  else .generic

def classify (stack : List Technology) (table : Table) : Workflow :=
  let signals := Signals.ofProject stack table
  ofArchitecture signals.flags signals.architecture

def numbered (steps : List (String × String × String)) : List SetupStep :=
  steps.zipIdx.map fun (step, index) => ⟨index + 1, step.1, step.2.1, step.2.2⟩

/-- The steps that set a project up, as far as its scripts provide for them. -/
def setup (manifest : Option Manifest) (lockFiles : List String) : List SetupStep :=
  let manager := Package.managerOf lockFiles
  let has := Manifest.hasScript manifest
  let run (script : String) : String := Package.scriptCommand script manager
  numbered
    ([("Install Dependencies", Package.installCommand manager, "Install all project dependencies")]
      ++ (if has "dev" then
          [("Start Development", run "dev", "Start development server with hot reload")]
        else if has "start" then [("Start Application", run "start", "Start the application")]
        else [])
      ++ (if has "test" then [("Run Tests", run "test", "Execute test suite")] else [])
      ++ (if has "build" then
          [("Build for Production", run "build", "Create production build")]
        else []))

def toJson (workflow : Workflow) : Json :=
  .object
    [("kind", .string workflow.architecture.name), ("description", .string workflow.description),
      ("flow_steps", Json.strings workflow.flowSteps), ("summary", .string workflow.summary),
      ("key_files", Json.strings workflow.keyFiles),
      ("deployment_options", Json.ofList Deployment.toJson workflow.deployments),
      ("dev_steps", Json.ofList SetupStep.toJson workflow.setupSteps),
      ("flags", .object (workflow.flags.map fun flag => (flag.1, .bool flag.2)))]

end Workflow

end ModuleAtlas
