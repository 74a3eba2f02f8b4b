/-
  BuildPlan.Command.Run
  ─────────────────────
  **CARRYING OUT A COMMAND.**

  A command loads the workspace and shows the build order of the requested
  projects, or every project with its direct prerequisites.  It ends with texts for
  the two streams of a terminal and an exit status.  Text that cannot be decoded,
  paths that no file system takes and numbers that are too long to write are no
  clean end.
-/
import BuildPlan.Command.Invocation
import BuildPlan.Command.Terminal
import BuildPlan.Planning.Build
import BuildPlan.Text.JsonString
import BuildPlan.Workspace.Load

namespace BuildPlan.Command

open Settings (Format)
open Workspace (FileTree Path Trouble)

/-! ## §1. How a command ends. -/

/-- What a command leaves behind. -/
structure Report where
  exitCode : Int
  out : String := ""
  err : String := ""
deriving DecidableEq, Repr

/-- What a command has no answer to. -/
inductive Breakdown where
  /-- A descriptor is no UTF-8 text. -/
  | undecodable
  /-- A path holds the character zero. -/
  | nullInPath
  /-- A value that is to be a text has none. -/
  | unwritable
  /-- A coordinate is looked up that is not there. -/
  | absent (c : Coordinate)
deriving DecidableEq, Repr

/-- What is reported of something that a command has no answer to. -/
def Breakdown.message : Breakdown → String
  | undecodable => "a descriptor is not valid UTF-8"
  | nullInPath => "embedded null byte"
  | unwritable => Settings.Value.tooManyDigits
  | absent c => c.text

/-- How a command ends. -/
inductive Ending where
  | finished (r : Report)
  /-- Before it begins, since the arguments make no command. -/
  | misused
  /-- With something it has no answer to. -/
  | broken (b : Breakdown)
deriving DecidableEq, Repr

/-- The end of a command that cannot load its workspace; `out` is what it has shown so far. -/
def endingOf (out : String) : Trouble → Ending
  | .defect d => .finished { exitCode := 1, out := out, err := failureLine d.message }
  | .fault f => .finished { exitCode := f.exitCode, out := out, err := failureLine f.message }
  | .undecodable => .broken .undecodable
  | .nullInPath => .broken .nullInPath
  | .unwritable => .broken .unwritable

/-! ## §2. The build order. -/

/-- The texts of the projects in the wanted form. -/
def orderText (asJson : Bool) (texts : List String) : String :=
  if asJson then line (Text.jsonArray texts) else lines texts

/-- What is noted on the way, as it is. -/
def logText (notes : List Note) : String :=
  String.join (notes.map fun n => n.line ++ "\n")

/-- Shows the build order of the projects that the options ask for. -/
def showOrder (verbose : Bool) (options : OrderOptions) (reactor : Reactor)
    (defaults : Request) : Ending :=
  let attempt := Planning.buildReactor reactor (options.request defaults) none
  let log := if verbose then logText attempt.notes else ""
  match attempt.result with
  | .error c => .broken (.absent c)
  | .ok outcome =>
    match outcome.fault?, outcome.plan? with
    | some f, _ =>
      .finished { exitCode := f.exitCode, err := log ++ failureLine f.message }
    | none, some plan =>
      .finished
        { exitCode := 0
          out := orderText options.asJson (plan.coordinates.map Coordinate.text)
          err := log }
    | none, none => .finished { exitCode := 0, err := log }

/-! ## §3. The list of projects. -/

/-- A direct prerequisite as the list shows it. -/
structure Prerequisite where
  /-- The project that comes before. -/
  coordinate : Coordinate
  isParent : Bool
deriving DecidableEq, Repr

/-- The prerequisite as a text. -/
def Prerequisite.text (p : Prerequisite) : String :=
  p.coordinate.text ++ (if p.isParent then " (parent)" else "")

/-- The prerequisites of a project that are in the reactor, its parent first. -/
def listedPrerequisites (reactor : Reactor) (p : Project) : List Prerequisite :=
  ((p.parent.filter (· ∈ reactor)).map fun c => ⟨c, true⟩).toList
    ++ (p.dependencies.filter (· ∈ reactor)).map fun c => ⟨c, false⟩

/-- The line of a project: its coordinate, version and directory, and its prerequisites. -/
def projectLine (reactor : Reactor) (p : Project) : String :=
  let version := match p.version with
    | none => ""
    | some v => if v = "" then "" else " " ++ v
  let arrow := match listedPrerequisites reactor p with
    | [] => ""
    | prerequisites => " → [" ++ Text.joined ", " (prerequisites.map Prerequisite.text) ++ "]"
  "  " ++ p.coordinate.text ++ version ++ " (" ++ p.path.getD "None" ++ ")" ++ arrow

/-- The heading above the list of projects. -/
def discoverHeading : String := heading "Discovering reactor projects"

/-- Lists the projects of a reactor. -/
def showProjects (reactor : Reactor) : Ending :=
  .finished
    { exitCode := 0, out := discoverHeading ++ lines (reactor.projects.map (projectLine reactor)) }

/-! ## §4. Every command. -/

/-- What the program answers when asked for its version. -/
def versionLine : String := line "cli, version 0.1.0"

/-- How the program is called.  The words are this program's own: no more is asked of the help
than that there is one. -/
def usage : String :=
  lines
    ["Usage: cli [-v] order [options] [workspace]",
     "       cli [-v] discover [workspace]",
     "",
     "Options of order:",
     "  -pl, --projects TEXT          projects to build, a leading ! excludes",
     "  --exclude TEXT                projects to skip",
     "  -rf, --resume-from TEXT       resume from this project",
     "  -am, --also-make              also build required projects",
     "  -amd, --also-make-dependents  also build dependent projects",
     "  --json                        print a JSON array"]

/-- Carries out a command in the workspace with the given root. -/
def execute [Format] (t : FileTree) (root : Path) (verbose : Bool) : Action → Ending
  | .order options =>
    match Workspace.load t root with
    | .error e => endingOf "" e
    | .ok (reactor, defaults) => showOrder verbose options reactor defaults
  | .discover =>
    match Workspace.load t root with
    | .error e => endingOf discoverHeading e
    | .ok (reactor, _) => showProjects reactor

/-- Carries out what a command line calls for.  From the text that names the workspace, `find` leads
to the files that are known there and to the root, if it is a directory. -/
def perform [Format] {m : Type → Type} [Monad m] (find : String → m (Option (FileTree × Path))) :
    Option Invocation → m Ending
  | none => return .misused
  | some .version => return .finished { exitCode := 0, out := versionLine }
  | some .help => return .finished { exitCode := 0, out := usage }
  | some .nowhere => return .broken .nullInPath
  | some (.run verbose workspace action) => do
    match ← find workspace with
    | none => return .misused
    | some (t, root) => return execute t root verbose action

/-- Runs the program with the given arguments from a directory of a tree. -/
def run [Format] (t : FileTree) (directory : Path) (env : Environment) (args : List String) :
    Ending :=
  let find (workspace : String) : Id (Option (FileTree × Path)) :=
    return (t.enter directory workspace).map fun root => (t, root)
  Id.run <| perform find (parse? env args)

end BuildPlan.Command
