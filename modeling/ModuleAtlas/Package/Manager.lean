import ModuleAtlas.Text.LetterCase

/-!
# Package managers

Package managers: which one a project uses, and how it is called.
-/

namespace ModuleAtlas.Package

/-- The files in which package managers record versions, in the order of precedence. -/
def lockFiles : List String := ["pnpm-lock.yaml", "yarn.lock", "package-lock.json"]

def managerOf (files : List String) : String :=
  if files.contains "pnpm-lock.yaml" then "pnpm"
  else if files.contains "yarn.lock" then "yarn"
  else "npm"

def scriptCommand (script manager : String) : String :=
  let name := Text.lower manager
  if name == "pnpm" || name == "yarn" then s!"{name} {script}"
  else if script == "start" || script == "test" then s!"npm {script}"
  else s!"npm run {script}"

def installCommand (manager : String) : String :=
  s!"{Text.lower manager} install"

end ModuleAtlas.Package
