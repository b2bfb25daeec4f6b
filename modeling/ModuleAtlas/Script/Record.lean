/-!
# Records of scripts

What a script is known by: the modules it imports, the names it exports, its declarations and the
calls of its members.
-/

namespace ModuleAtlas.Script

/-- How a name is bound by an import. -/
inductive BindingKind where
  | byDefault
  | byName
  | wholeModule
  | other (name : String)
  deriving DecidableEq, Repr, Inhabited

namespace BindingKind

def name : BindingKind → String
  | .byDefault => "default"
  | .byName => "named"
  | .wholeModule => "namespace"
  | .other name => name

def ofName (name : String) : BindingKind :=
  if name = "default" then .byDefault
  else if name = "named" then .byName
  else if name = "namespace" then .wholeModule
  else .other name

end BindingKind

/-- One name that an import binds. -/
structure Specifier where
  localName : String
  kind : BindingKind
  importedName : Option String := none
  deriving DecidableEq, Repr

inductive ImportForm where
  | statement
  | require
  | reexport
  | other (name : String)
  deriving DecidableEq, Repr, Inhabited

namespace ImportForm

def name : ImportForm → String
  | .statement => "esm"
  | .require => "require"
  | .reexport => "reexport"
  | .other name => name

def ofName (name : String) : ImportForm :=
  if name = "esm" then .statement
  else if name = "require" then .require
  else if name = "reexport" then .reexport
  else .other name

end ImportForm

inductive ExportKind where
  | byDefault
  | ofFunction
  | ofClass
  | ofVariable
  | ofType
  | byName
  | commonjs
  | other (name : String)
  deriving DecidableEq, Repr, Inhabited

namespace ExportKind

def name : ExportKind → String
  | .byDefault => "default"
  | .ofFunction => "function"
  | .ofClass => "class"
  | .ofVariable => "variable"
  | .ofType => "type"
  | .byName => "named"
  | .commonjs => "commonjs"
  | .other name => name

def ofName (name : String) : ExportKind :=
  if name = "default" then .byDefault
  else if name = "function" then .ofFunction
  else if name = "class" then .ofClass
  else if name = "variable" then .ofVariable
  else if name = "type" then .ofType
  else if name = "named" then .byName
  else if name = "commonjs" then .commonjs
  else .other name

end ExportKind

structure Import where
  source : String
  specifiers : List Specifier := []
  form : ImportForm := .statement
  deriving DecidableEq, Repr

structure Export where
  name : String
  kind : ExportKind
  deriving DecidableEq, Repr

structure Variable where
  name : String
  initializer : Option String
  deriving DecidableEq, Repr

/-- A call or construction whose callee is `object.property`. -/
structure MemberCall where
  objectName : Option String
  propertyName : String
  firstArgument : Option String
  constructed : Bool := false
  deriving DecidableEq, Repr

/-- One fact about a script. -/
inductive Record where
  | imported (value : Import)
  | exported (value : Export)
  | declaredFunction (name : String)
  | declaredClass (name : String)
  | declaredVariable (value : Variable)
  | called (value : MemberCall)
  deriving DecidableEq, Repr

end ModuleAtlas.Script
