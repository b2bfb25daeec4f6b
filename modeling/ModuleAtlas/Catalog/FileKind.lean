/-!
# Kinds of files

The kinds that source files are sorted into.
-/

namespace ModuleAtlas

/-- What a source file is taken for. -/
inductive FileKind where
  | server
  | component
  | model
  | library
  | configuration
  | test
  | packageConfiguration
  | unreadable
  | unparsed
  | unknown
  | other (name : String)
  deriving DecidableEq, Repr, Inhabited

namespace FileKind

def name : FileKind → String
  | .server => "express-server"
  | .component => "react-component"
  | .model => "mongoose-model"
  | .library => "module"
  | .configuration => "config"
  | .test => "test"
  | .packageConfiguration => "package-config"
  | .unreadable => "unparseable"
  | .unparsed => "parse-error"
  | .unknown => "unknown"
  | .other name => name

def ofName (name : String) : FileKind :=
  if name = "express-server" then .server
  else if name = "react-component" then .component
  else if name = "mongoose-model" then .model
  else if name = "module" then .library
  else if name = "config" then .configuration
  else if name = "test" then .test
  else if name = "package-config" then .packageConfiguration
  else if name = "unparseable" then .unreadable
  else if name = "parse-error" then .unparsed
  else if name = "unknown" then .unknown
  else .other name

/-- Whether the kind stands for a file that could not be analysed. -/
def isFailure : FileKind → Bool
  | .unreadable => true
  | .unparsed => true
  | _ => false

end FileKind

end ModuleAtlas
