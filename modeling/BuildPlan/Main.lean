/-
  BuildPlan.Main
  ──────────────
  **THE PROGRAM.**

  The arguments and the environment are read first.  Then descriptors are read from
  disk as loading asks for them, and the command is carried out on what was read.  The
  descriptors are written in TOML.
-/
import BuildPlan.Command.Run
import BuildPlan.Settings.Toml

namespace BuildPlan

open Command (Ending Environment)
open Workspace (FileTree Path)

/-- The variables that the program looks at. -/
def consulted : List String :=
  ["REACTOR_GRAPH_VERBOSE", "REACTOR_GRAPH_VERSION"]
    ++ ["PROJECTS", "EXCLUDE", "RESUME_FROM", "ALSO_MAKE", "ALSO_MAKE_DEPENDENTS",
        "AS_JSON"].map Command.orderVariable

/-- The environment of the program. -/
def readEnvironment : IO Environment := do
  let values ← consulted.mapM fun name => do return (name, ← IO.getEnv name)
  return values.filterMap fun (name, value) => value.map (name, ·)

/-- Reads descriptors until loading misses none that there is. -/
partial def readDescriptors (t : FileTree) (root : Path) : IO FileTree := do
  match Workspace.load t root with
  | .error (.defect (.missing source)) =>
    match ← (IO.FS.readBinFile source).toBaseIO with
    | .ok bytes => readDescriptors (t.insertFile (Path.top.resolve source) bytes) root
    | .error _ => return t
  | _ => return t

/-- The directory that a text leads to, if it is one. -/
def findDirectory (text : String) : IO (Option Path) := do
  match ← (IO.FS.realPath text).toBaseIO with
  | .error _ => return none
  | .ok place =>
    if ← place.isDir then return some (Path.top.resolve place.toString) else return none

/-- The workspace that a text leads to: its descriptors and its root, if that is a directory. -/
def findWorkspace (text : String) : IO (Option (FileTree × Path)) := do
  match ← findDirectory text with
  | none => return none
  | some root => return some (← readDescriptors {} root, root)

/-- Shows how a call ended and gives its exit status. -/
def conclude : Ending → IO UInt32
  | .finished r => do
    IO.print r.out
    IO.eprint r.err
    return r.exitCode.toNat.toUInt32
  | .misused => do
    IO.eprint Command.usage
    return 2
  | .broken b => do
    IO.eprint (Command.failureLine b.message)
    return 1

end BuildPlan

/-- Runs the program. -/
def main (args : List String) : IO UInt32 := do
  let invocation? := BuildPlan.Command.parse? (← BuildPlan.readEnvironment) args
  BuildPlan.conclude (← BuildPlan.Command.perform BuildPlan.findWorkspace invocation?)
