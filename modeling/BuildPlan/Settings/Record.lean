/-
  BuildPlan.Settings.Record
  ─────────────────────────
  **COORDINATES, PROJECTS AND REQUESTS FROM TABLES.**

  A table is read entry by entry.  A text is not made of any other value, an entry
  of an unknown name is passed over, and an entry without which the record makes
  sense may be missing.  If the table does not fit, the names of the entries at
  fault are reported, in alphabetical order; a value that is no table has none.
-/
import BuildPlan.Project
import BuildPlan.Request
import BuildPlan.Settings.Value

namespace BuildPlan.Settings

/-! ## §1. The value of one entry. -/

/-- A text. -/
def readText : Value → Option String
  | .string s => some s
  | _ => none

/-- No value, or one that `read` accepts. -/
def readNullable {α : Type} (read : Value → Option α) : Value → Option (Option α)
  | .null => some none
  | v => (read v).map some

/-- A list of values that `read` accepts. -/
def readList {α : Type} (read : Value → Option α) (v : Value) : Option (List α) := do
  (← v.items?).mapM read

/-- What an entry holds; `missing` if there is no such entry. -/
def entry {α : Type} (entries : Entries) (name : String) (missing : Option α)
    (read : Value → Option α) : Option α :=
  match entries.get? name with
  | none => missing
  | some v => read v

/-- The names of the entries at fault. -/
def misfits (checks : List (String × Bool)) : List String :=
  (checks.filter fun c => !c.2).map Prod.fst

/-! ## §2. Records. -/

/-- The coordinate that a table holds. -/
def readCoordinate : Value → Except (List String) Coordinate
  | .table entries =>
    let name := entry entries "name" none readText
    let space := entry entries "namespace" none readText
    match name, space with
    | some name, some space => .ok ⟨space, name⟩
    | _, _ => .error (misfits [("name", name.isSome), ("namespace", space.isSome)])
  | _ => .error []

/-- The selector that a value stands for: a text, or a table that holds a coordinate. -/
def readSelector : Value → Option Selector
  | .string s => some (.text s)
  | v => (readCoordinate v).toOption.map .exact

/-- The choice that a word stands for. -/
def readAlsoMake : Value → Option AlsoMake
  | .string s => AlsoMake.ofWord? s
  | _ => none

/-- The project that a table describes. -/
def readProject : Value → Except (List String) Project
  | .table entries =>
    let coordinateOf (v : Value) := (readCoordinate v).toOption
    let coordinate := entry entries "coordinate" none coordinateOf
    let dependencies := entry entries "dependencies" (some []) (readList coordinateOf)
    let modules := entry entries "modules" (some []) (readList coordinateOf)
    let parent := entry entries "parent" (some none) (readNullable coordinateOf)
    let path := entry entries "path" (some none) (readNullable readText)
    let version := entry entries "version" (some none) (readNullable readText)
    match coordinate, dependencies, modules, parent, path, version with
    | some coordinate, some dependencies, some modules, some parent, some path, some version =>
      .ok (Project.declare coordinate parent modules dependencies version path)
    | _, _, _, _, _, _ =>
      .error (misfits
        [("coordinate", coordinate.isSome), ("dependencies", dependencies.isSome),
         ("modules", modules.isSome), ("parent", parent.isSome), ("path", path.isSome),
         ("version", version.isSome)])
  | _ => .error []

/-- The request that a table describes. -/
def readRequest : Value → Except (List String) Request
  | .table entries =>
    let excluded := entry entries "excluded" (some []) (readList readSelector)
    let alsoMake := entry entries "make_behavior" (some .nothing) readAlsoMake
    let resumeFrom := entry entries "resume_from" (some none) (readNullable readSelector)
    let selected := entry entries "selected" (some []) (readList readSelector)
    match excluded, alsoMake, resumeFrom, selected with
    | some excluded, some alsoMake, some resumeFrom, some selected =>
      .ok (Request.of selected excluded resumeFrom alsoMake)
    | _, _, _, _ =>
      .error (misfits
        [("excluded", excluded.isSome), ("make_behavior", alsoMake.isSome),
         ("resume_from", resumeFrom.isSome), ("selected", selected.isSome)])
  | _ => .error []

end BuildPlan.Settings
