/-
  BuildPlan.Settings.Outline
  ──────────────────────────
  **TABLES IN THE MAKING.**

  While a settings text is read, each table remembers how it came to be, since that
  decides how it may still grow:

      implied   on the way to a table with a header; may get its own header
      headed    by a header of its own; gets no second one
      dotted    by a key with dots; gets no header, but more such keys

  A value that was written out is never added to, and a name never gets a second
  value.  A list of tables knows which piece of the table around it its latest item
  lies in: the items of that piece cover those of earlier ones.
-/
import BuildPlan.Settings.Lexeme
import BuildPlan.Settings.Value

namespace BuildPlan.Settings

/-- How a table came to be. -/
inductive Origin where
  /-- On the way to a table with a header. -/
  | implied
  | headed
  /-- By a key with dots. -/
  | dotted
deriving DecidableEq, Repr

/-- What stands under a name of a table in the making. -/
inductive Node where
  /-- A value that was written out. -/
  | leaf (v : Value)
  | table (origin : Origin) (entries : List (String × Node))
  /-- A list of tables, of which the latest may still grow; the earlier ones stand in reverse.  The
  latest lies in the piece of that number, and so do all others but the first `covered` ones. -/
  | tables (piece covered : Nat) (latest : List (String × Node))
    (earlier : List (List (String × Node)))

/-- A table in the making: what stands under its names, in order of declaration. -/
abbrev Outline := List (String × Node)

namespace Outline

/-! ## §1. Growing. -/

/-- The outline with something new under the name. -/
def put (name : String) (n : Node) : Outline → Outline
  | [] => [(name, n)]
  | (k, old) :: rest => if k = name then (k, n) :: rest else (k, old) :: put name n rest

/-- Goes down through the tables of the given names and changes what it comes to.  `enter` says
what to go into under a name, and how to put it back. -/
def descend (enter : Option Node → Option (Outline × (Outline → Node)))
    (change : Outline → Option Outline) : List String → Outline → Option Outline
  | [], o => change o
  | name :: names, o => do
    let (inner, wrap) ← enter (o.lookup name)
    let inner ← descend enter change names inner
    return put name (wrap inner) o

/-- The way of a header: into any table and into the latest of a list. -/
def enterHeader : Option Node → Option (Outline × (Outline → Node))
  | none => some ([], .table .implied)
  | some (.table origin entries) => some (entries, .table origin)
  | some (.tables piece covered latest earlier) =>
    some (latest, fun o => .tables piece covered o earlier)
  | some (.leaf _) => none

/-- The way of a key with dots: into tables that have no header of their own. -/
def enterDotted : Option Node → Option (Outline × (Outline → Node))
  | none => some ([], .table .dotted)
  | some (.table origin entries) =>
    if origin = .headed then none else some (entries, .table .dotted)
  | _ => none

/-- Gives a new name its value. -/
def assign (key : Key) (v : Value) : Outline → Option Outline :=
  descend enterDotted
    (fun o => match o.lookup key.last with
      | none => some (put key.last (.leaf v) o)
      | some _ => none)
    key.parents

/-- Gives a table its header. -/
def openTable (key : Key) : Outline → Option Outline :=
  descend enterHeader
    (fun o => match o.lookup key.last with
      | none => some (put key.last (.table .headed []) o)
      | some (.table .implied entries) => some (put key.last (.table .headed entries) o)
      | some _ => none)
    key.parents

/-- Adds a table to a list of tables, in a piece of the table around the list. -/
def openItem (key : Key) (piece : Nat) : Outline → Option Outline :=
  descend enterHeader
    (fun o => match o.lookup key.last with
      | none => some (put key.last (.tables piece 0 [] []) o)
      | some (.tables before covered latest earlier) =>
        let covered := if piece = before then covered else earlier.length + 1
        some (put key.last (.tables piece covered [] (latest :: earlier)) o)
      | some _ => none)
    key.parents

/-! ## §2. The finished table. -/

mutual

/-- What stands under a name, as a value. -/
def finishNode : Node → Value
  | .leaf v => v
  | .table _ entries => .table (finish entries)
  | .tables _ covered latest earlier =>
    .tables covered ((finishAll earlier).reverse ++ [finish latest])

/-- The outline as the entries of a table. -/
def finish : List (String × Node) → Entries
  | [] => []
  | (name, n) :: rest => (name, finishNode n) :: finish rest

/-- Several outlines as the entries of tables. -/
def finishAll : List (List (String × Node)) → List Entries
  | [] => []
  | o :: rest => finish o :: finishAll rest

end

end Outline

end BuildPlan.Settings
