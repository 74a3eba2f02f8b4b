/-
  BuildPlan.Fault
  ───────────────
  **WHY NO PLAN CAN BE MADE.**

  Each fault carries what it is about; the wording and the exit status of a
  command that fails for it stand in one function each.  A look-up that finds
  nothing is no fault of anyone's, but a mistake in the planning itself, so it is
  kept apart (`Halt.absent`).
-/
import BuildPlan.Selector

namespace BuildPlan

/-- A reason why the projects to build cannot be determined. -/
inductive Fault where
  /-- The projects need each other in a ring; its first member is repeated at the end. -/
  | cyclic (cycle : List Coordinate)
  /-- The selector fits no project, or each of the candidates.  `origin` is the option it was
  given for. -/
  | unresolved (selector : Selector) (candidates : List Coordinate) (origin : Option String)
  /-- The options leave nothing to build. -/
  | nothingLeft (options : String)
  /-- Two projects have the same coordinate; `paths` are their directories, as far as known. -/
  | duplicate (coordinate : Coordinate) (paths : List (Option String))
  | other (text : String)
deriving DecidableEq, Repr

namespace Fault

/-- The exit status of a command that fails for this fault. -/
def exitCode : Fault → Int
  | cyclic _ => 3
  | unresolved _ _ _ => 4
  | nothingLeft _ => 5
  | duplicate _ _ => 6
  | other _ => 1

/-- The remark on the option that a selector was given for; an empty one is passed over. -/
def originRemark : Option String → String
  | none => ""
  | some o => if o = "" then "" else " (from " ++ o ++ ")"

/-- The remark on the directories of two projects; unknown and empty ones are passed over. -/
def pathsRemark (paths : List (Option String)) : String :=
  match (paths.filterMap id).filter (· ≠ "") with
  | [] => ""
  | known => " (" ++ Text.joined ", " known ++ ")"

/-- The fault in words. -/
def message : Fault → String
  | cyclic cycle =>
    "The projects in the reactor contain a cyclic reference: " ++ Coordinate.texts " → " cycle
  | unresolved selector [] origin =>
    "Could not find the selected project in the reactor: " ++ Text.quoted selector.shown
      ++ originRemark origin
  | unresolved selector candidates origin =>
    "Ambiguous project selector " ++ Text.quoted selector.shown ++ originRemark origin
      ++ " matches: " ++ Coordinate.texts ", " candidates
  | nothingLeft options => "No projects left to build after applying " ++ options
  | duplicate c paths =>
    "Project " ++ c.text ++ " is declared more than once" ++ pathsRemark paths
  | other text => text

end Fault

/-- Why a step comes to no result. -/
inductive Halt where
  /-- The request or the projects are at fault. -/
  | fault (f : Fault)
  /-- A coordinate is looked up where it is not to be found. -/
  | absent (c : Coordinate)
deriving DecidableEq, Repr

end BuildPlan
