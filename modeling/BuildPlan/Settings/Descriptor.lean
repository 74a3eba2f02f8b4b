/-
  BuildPlan.Settings.Descriptor
  ─────────────────────────────
  **READING THE DESCRIPTION OF A PROJECT.**

  A descriptor is a table with a table `project` and, at the root of a workspace,
  a table `reactor` of defaults.  What does not fit is a `Defect`, reported with
  the place the descriptor was read from.  A value that is to be a text and has
  none is a defect only where a coordinate is read; elsewhere reading breaks off.
  What the text of a value is, the language of the settings says (`Format`).
-/
import BuildPlan.Project
import BuildPlan.Request
import BuildPlan.Settings.Format

namespace BuildPlan.Settings

/-! ## §1. What may be wrong with a descriptor. -/

/-- A reason why a descriptor cannot be used; `source` is where it was read from. -/
inductive Defect where
  | missing (source : String)
  /-- The text is not in the language of settings; `detail` is what is said against it. -/
  | unreadable (source detail : String)
  | noProject (source : String)
  | noName (source : String)
  | noNamespace (source : String)
  | badCoordinate (source field : String) (cause : Coordinate.Malformed)
  /-- The entry is to hold a coordinate and has no text. -/
  | unwritable (source field : String)
  | notAList (source label key : String)
  | notATable (source : String)
  | badChoice (source word : String)
  | listedTwice (directory : String)
deriving DecidableEq, Repr

/-- The defect in words. -/
def Defect.message : Defect → String
  | missing source => "No reactor.toml found at " ++ source
  | unreadable source detail => "Invalid TOML in " ++ source ++ ": " ++ detail
  | noProject source => "Missing [project] table in " ++ source
  | noName source => "Missing [project].name in " ++ source
  | noNamespace source => "Missing [project].namespace in " ++ source
  | badCoordinate source field cause =>
    source ++ ": invalid " ++ field ++ ": " ++ cause.message
  | unwritable source field => source ++ ": invalid " ++ field ++ ": " ++ Value.tooManyDigits
  | notAList source label key => source ++ ": " ++ label ++ "." ++ key ++ " must be a list"
  | notATable source => source ++ ": [reactor] must be a table"
  | badChoice source word =>
    source ++ ": invalid make-behavior " ++ Text.quoted word ++ ", expected one of: "
      ++ Text.joined ", " (AlsoMake.all.map AlsoMake.word)
  | listedTwice directory => "Module directory " ++ directory ++ " is listed more than once"

/-- A reason why reading a descriptor comes to no end. -/
inductive Refusal where
  | defect (d : Defect)
  /-- A value that is to be a text has none. -/
  | unwritable
deriving DecidableEq, Repr

/-! ## §2. The entries of a descriptor. -/

/-- The project table. -/
def projectTable (source : String) (entries : Entries) : Except Defect Entries :=
  match entries.get? "project" with
  | some (.table project) => .ok project
  | _ => .error (.noProject source)

/-- The coordinate that the value reads as; `field` is the entry it stands in. -/
def coordinateIn [Format] (source field : String) (v : Value) : Except Defect Coordinate :=
  match Format.text? v with
  | none => .error (.unwritable source field)
  | some s => (Coordinate.parse s).mapError (.badCoordinate source field)

/-- The text of a value, if it has one. -/
def textOf [Format] (v : Value) : Except Refusal String :=
  match Format.text? v with
  | none => .error .unwritable
  | some s => .ok s

/-- The list under the key, empty if there is none; `label` is the table it stands in. -/
def listIn (source label : String) (entries : Entries) (key : String) :
    Except Defect (List Value) :=
  match entries.get? key with
  | none => .ok []
  | some v =>
    match v.items? with
    | some items => .ok items
    | none => .error (.notAList source label key)

/-- The table of defaults, empty if there is none. -/
def defaultsTable (source : String) (entries : Entries) : Except Defect Entries :=
  match entries.get? "reactor" with
  | none => .ok []
  | some (.table reactor) => .ok reactor
  | some _ => .error (.notATable source)

/-- The default request of a workspace. -/
def defaultRequest [Format] (source : String) (entries : Entries) : Except Refusal Request := do
  let reactor ← (defaultsTable source entries).mapError .defect
  let word ← ((reactor.get? "make-behavior").map textOf).getD (.ok AlsoMake.nothing.word)
  let alsoMake ← match AlsoMake.ofWord? word with
    | some alsoMake => .ok alsoMake
    | none => .error (.defect (.badChoice source word))
  let exclude ← (listIn source "reactor" reactor "exclude").mapError .defect
  return Request.of [] ((← exclude.mapM textOf).map .text) none alsoMake

/-! ## §3. The project table. -/

/-- What a descriptor says of a project, apart from where it lies and what its modules are. -/
structure Description where
  coordinate : Coordinate
  parent : Option Coordinate
  dependencies : List Coordinate
  /-- The module directories, as declared; nothing in the place of one that has no text. -/
  modules : List (Option String)
  /-- The version, if one is given; nothing in its place if it has no text. -/
  version : Option (Option String)
deriving DecidableEq, Repr

/-- The value under the key, if it counts as given. -/
def filled? (entries : Entries) (key : String) : Option Value :=
  (entries.get? key).filter Value.isFilled

/-- The namespace of a project: its own, or else that of its parent. -/
def namespaceOf [Format] (source : String) (project : Entries) (parent : Option Coordinate) :
    Except Refusal String :=
  match filled? project "namespace", parent with
  | some v, _ => textOf v
  | none, some p => .ok p.space
  | none, none => .error (.defect (.noNamespace source))

/-- The identity of a project and its parent. -/
def identify [Format] (source : String) (project : Entries) :
    Except Refusal (Coordinate × Option Coordinate) :=
  match filled? project "name" with
  | none => .error (.defect (.noName source))
  | some name => do
    let parent ← ((filled? project "parent").mapM (coordinateIn source "parent")).mapError .defect
    let space ← namespaceOf source project parent
    return (⟨space, ← textOf name⟩, parent)

/-- Reads a project table.  Modules and the version are not needed to read it, so they may be
without a text. -/
def describe [Format] (source : String) (project : Entries) : Except Refusal Description := do
  let (coordinate, parent) ← identify source project
  let declared ← (listIn source "project" project "dependencies").mapError .defect
  let dependencies ← (declared.mapM (coordinateIn source "dependency")).mapError .defect
  let modules ← (listIn source "project" project "modules").mapError .defect
  return ⟨coordinate, parent, dependencies, modules.map Format.text?,
    (project.get? "version").map Format.text?⟩

end BuildPlan.Settings
