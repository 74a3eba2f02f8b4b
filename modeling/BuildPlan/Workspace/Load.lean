/-
  BuildPlan.Workspace.Load
  ────────────────────────
  **EVERY PROJECT OF A WORKSPACE.**

  Each directory of a workspace that is a project holds a descriptor,
  `reactor.toml`.  Loading starts at the root and follows the modules depth first,
  a project before its modules, which is the order of discovery:

      pending   directories still to visit, the next one first, and troubles that
                loading comes to if it gets as far
      unread    descriptors that no visit has used up
      visited   what is known so far, the latest last

  A directory is visited once only, and a second visit is an error, so each visit
  uses up a descriptor.  The projects are put together at the end, when the
  coordinates of all modules are known.

  Which texts are descriptors, the language of the settings says (`Settings.Format`).
  What a machine adds lies outside: every file of the tree can be read, no name is too
  long to be looked up, and modules may be nested as deep as there are directories.
-/
import BuildPlan.Reactor.Basic
import BuildPlan.Settings.Descriptor
import BuildPlan.Workspace.FileTree

namespace BuildPlan.Workspace

open Settings (Defect Description Entries Format Refusal)

/-! ## §1. Reading a descriptor. -/

/-- A reason why a workspace cannot be loaded. -/
inductive Trouble where
  | defect (d : Defect)
  | fault (f : Fault)
  /-- A descriptor is no UTF-8 text. -/
  | undecodable
  /-- A path holds the character zero. -/
  | nullInPath
  /-- A value that is to be a text has none. -/
  | unwritable
deriving DecidableEq, Repr

/-- The trouble that reading a descriptor makes. -/
def Trouble.ofRefusal : Refusal → Trouble
  | .defect d => .defect d
  | .unwritable => .unwritable

/-- The name of a descriptor. -/
def descriptorName : String := "reactor.toml"

/-- The characters with every end of line written as one newline. -/
def unifyNewlines : List Char → List Char
  | '\r' :: '\n' :: cs => '\n' :: unifyNewlines cs
  | '\r' :: cs => '\n' :: unifyNewlines cs
  | c :: cs => c :: unifyNewlines cs
  | [] => []

/-- The table in the bytes of a descriptor; `source` is where they were read from. -/
def readEntries [Format] (source : String) (bytes : ByteArray) : Except Trouble Entries :=
  match String.fromUTF8? bytes with
  | none => .error .undecodable
  | some s =>
    match Format.read (unifyNewlines s.toList) with
    | .error detail => .error (.defect (.unreadable source detail))
    | .ok entries => .ok entries

/-- The table in the descriptor of a directory. -/
def descriptorAt [Format] (t : FileTree) (directory : Path) : Except Trouble Entries :=
  let source := directory.child descriptorName
  match t.file? source with
  | none => .error (.defect (.missing source.text))
  | some bytes => readEntries source.text bytes

/-! ## §2. Visiting the modules. -/

/-- A directory of a workspace and what its descriptor says. -/
structure Visit where
  directory : Path
  description : Description
deriving DecidableEq, Repr

/-- Where a module lies, as its directory says. -/
def locate (directory : Path) : Option String → Except Trouble Path
  | none => .error .unwritable
  | some text =>
    match directory.resolve? text with
    | none => .error .nullInPath
    | some module => .ok module

/-- Where the modules lie, in order of declaration. -/
def Visit.modules (v : Visit) : List (Except Trouble Path) :=
  v.description.modules.map (locate v.directory)

/-- What a visit leads to: the modules, and then the version, which is looked at last. -/
def Visit.pending (v : Visit) : List (Except Trouble Path) :=
  v.modules ++ (if v.description.version = some none then [.error .unwritable] else [])

/-- What is learnt by visiting a directory whose descriptor holds the given bytes. -/
def visit [Format] (directory : Path) (bytes : ByteArray) : Except Trouble Visit := do
  let source := (directory.child descriptorName).text
  let entries ← readEntries source bytes
  let project ← (Settings.projectTable source entries).mapError .defect
  let description ← (Settings.describe source project).mapError .ofRefusal
  return ⟨directory, description⟩

/-- Whether a file is the descriptor of a directory. -/
def describes (directory : Path) (f : Path × ByteArray) : Bool :=
  f.1 = directory.child descriptorName

/-- Visits the pending directories and the modules they lead to. -/
def explore [Format] (unread : List (Path × ByteArray)) (visited : List Visit) :
    List (Except Trouble Path) → Except Trouble (List Visit)
  | [] => .ok visited
  | .error e :: _ => .error e
  | .ok directory :: pending =>
    if directory ∈ visited.map Visit.directory then
      .error (.defect (.listedTwice directory.text))
    else
      match _ : unread.find? (describes directory) with
      | none => .error (.defect (.missing (directory.child descriptorName).text))
      | some f =>
        match visit directory f.2 with
        | .error e => .error e
        | .ok v =>
          explore (unread.eraseP (describes directory)) (visited ++ [v]) (v.pending ++ pending)
termination_by unread.length
decreasing_by
  have hmem : f ∈ unread := List.mem_of_find?_eq_some (by assumption)
  have hlen := List.length_eraseP_of_mem hmem (List.find?_some (by assumption))
  have hpos := List.length_pos_of_mem hmem
  omega

/-! ## §3. The projects. -/

/-- The coordinates of the projects in the given directories. -/
def coordinatesOf (visited : List Visit) (directories : List Path) : List Coordinate :=
  directories.filterMap fun d =>
    (visited.find? fun v => v.directory = d).map fun v => v.description.coordinate

/-- The project of a visited directory. -/
def Visit.project (root : Path) (visited : List Visit) (v : Visit) : Project :=
  Project.declare v.description.coordinate v.description.parent
    (coordinatesOf visited (v.modules.filterMap Except.toOption)) v.description.dependencies
    v.description.version.join (some (v.directory.relativeTo root))

/-- Every project of the workspace in the given directory, in order of discovery, and the default
request of the workspace. -/
def load [Format] (t : FileTree) (root : Path) : Except Trouble (Reactor × Request) := do
  let source := (root.child descriptorName).text
  let defaults ← (Settings.defaultRequest source (← descriptorAt t root)).mapError .ofRefusal
  let visited ← explore t.files [] [.ok root]
  let reactor ← (Reactor.ofList (visited.map (Visit.project root visited))).mapError .fault
  return (reactor, defaults)

/-- Loads the workspace that a text leads to from a directory. -/
def loadFrom [Format] (t : FileTree) (base : Path) (text : String) :
    Except Trouble (Reactor × Request) :=
  match base.resolve? text with
  | none => .error .nullInPath
  | some root => load t root

end BuildPlan.Workspace
