/-
  BuildPlan.Project
  ─────────────────
  **ONE PROJECT OF A REACTOR.**

  A project names its parent, its child modules and its dependencies by
  coordinate; whether such a link leads to a project of the same reactor is for
  the reactor to say.  Modules only group projects, they put no order on them.
-/
import BuildPlan.Coordinate
import BuildPlan.Distinct

namespace BuildPlan

/-- A project and its links to others. -/
structure Project where
  coordinate : Coordinate
  parent : Option Coordinate := none
  /-- The child modules, in declaration order and with any repeats. -/
  modules : List Coordinate := []
  /-- The dependencies, in order of first declaration. -/
  dependencies : List Coordinate := []
  /-- The version, for display only. -/
  version : Option String := none
  /-- The directory of the project relative to the root of its workspace. -/
  path : Option String := none
  dependencies_nodup : dependencies.Nodup := by decide
deriving DecidableEq, Repr

namespace Project

/-- The project with the given links, later repeats of a dependency dropped. -/
def declare (coordinate : Coordinate) (parent : Option Coordinate) (modules : List Coordinate)
    (dependencies : List Coordinate) (version path : Option String) : Project where
  coordinate := coordinate
  parent := parent
  modules := modules
  dependencies := distinct dependencies
  version := version
  path := path
  dependencies_nodup := nodup_distinct dependencies

end Project

end BuildPlan
