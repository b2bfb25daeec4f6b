import ModuleAtlas.Disk.RealPath

/-!
# Surroundings of a program

What a program finds around it: the disk, the home of its user, the directory it works in and the
variables of its environment.
-/

namespace ModuleAtlas

structure Surroundings where
  disk : Disk.Item
  home : String
  workingDirectory : String
  environment : List (String × String) := []

namespace Surroundings

/-- A path as somebody writes it, with the home in place of a tilde. -/
def expand (surroundings : Surroundings) (path : String) : Except Disk.Lost String :=
  Disk.expandHome surroundings.home (Path.plain path)

def locate (surroundings : Surroundings) (path : String) : String :=
  Path.join surroundings.workingDirectory path

/-- The absolute path without links that a path as somebody writes it leads to. -/
def resolve (surroundings : Surroundings) (path : String) : Except Disk.Lost String := do
  let expanded ← surroundings.expand path
  Disk.realPath surroundings.disk (surroundings.locate expanded)

end Surroundings

end ModuleAtlas
