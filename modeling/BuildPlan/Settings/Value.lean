/-
  BuildPlan.Settings.Value
  ────────────────────────
  **WHAT A SETTING CAN HOLD.**

  Settings are tables of values.  Where a value of another kind stands in the
  place of a text, its text form is taken:

      boolean          True, False
      integer          decimal
      float            the fewest digits that read back
      date, time       2024-01-02, 07:32:00, 2024-01-02 07:32:00+00:00
      array            [a, b], each item as in a listing
      table            {k: v}, each key and value as in a listing
      list of tables   <AoT [t, u]>
      nothing          None

  A listing has texts in quotes, moments by their numbers and a list of tables like
  an array.  A whole number of too many digits has no text form, and neither has
  what shows it.  Of a list of tables a listing leaves out those that later ones
  cover; where the list itself, or the table that it lies in, is asked for, none is
  covered.
-/
import BuildPlan.Decimal.Shortest
import BuildPlan.Settings.Moment
import BuildPlan.Text.Quoted

namespace BuildPlan.Settings

/-- A value of a setting. -/
inductive Value where
  | null
  | boolean (b : Bool)
  | integer (n : Int)
  /-- A number of double precision. -/
  | float (x : Decimal.Floating)
  | string (s : String)
  /-- A date, a time of day, or both. -/
  | moment (m : Moment)
  | array (items : List Value)
  /-- Values under names, in order of declaration. -/
  | table (entries : List (String × Value))
  /-- A list of tables that were declared one by one; in a listing the later ones cover so many
  at its front. -/
  | tables (covered : Nat) (items : List (List (String × Value)))
deriving Repr, Inhabited

/-- The entries of a table, in order of declaration. -/
abbrev Entries := List (String × Value)

/-- The value under a name. -/
def Entries.get? (entries : Entries) (name : String) : Option Value := entries.lookup name

namespace Value

/-! ## §1. The text of a value. -/

/-- The most digits in base ten that a whole number is written with. -/
def mostDigits : Nat := 4300

/-- What is said of a whole number that has more digits. -/
def tooManyDigits : String :=
  "Exceeds the limit (" ++ toString mostDigits ++ " digits) for integer string conversion; "
    ++ "use sys.set_int_max_str_digits() to increase the limit"

/-- A whole number in base ten, if it has not too many digits. -/
def wholeText? (n : Int) : Option String :=
  if n.natAbs < Decimal.tenTo mostDigits then some (toString n) else none

/-- Entries that are written out, between braces. -/
def braced (entries : List String) : String := "\x7b" ++ Text.joined ", " entries ++ "\x7d"

/-- Items that are written out, between brackets. -/
def bracketed (items : List String) : String := "[" ++ Text.joined ", " items ++ "]"

mutual

/-- The value as it stands in a listing. -/
def listed? : Value → Option String
  | null => some "None"
  | boolean b => some (if b then "True" else "False")
  | integer n => wholeText? n
  | float x => some x.text
  | string s => some (Text.quoted s)
  | moment m => some m.listed
  | array items => ((listedItems items).mapM id).map bracketed
  | table entries => (listedEntries entries).map braced
  | tables covered items => (((listedTables items).drop covered).mapM id).map bracketed

/-- The items of an array as they stand in it. -/
def listedItems : List Value → List (Option String)
  | [] => []
  | v :: vs => listed? v :: listedItems vs

/-- The entries of a table as they stand in it. -/
def listedEntries : List (String × Value) → Option (List String)
  | [] => some []
  | (k, v) :: es => do
    let shown ← listed? v
    return (Text.quoted k ++ ": " ++ shown) :: (← listedEntries es)

/-- The tables of a list as they stand in it. -/
def listedTables : List (List (String × Value)) → List (Option String)
  | [] => []
  | t :: ts => (listedEntries t).map braced :: listedTables ts

end

/-- The value with none of its tables covered, if it is a list of tables. -/
def uncovered : Value → Value
  | tables _ items => tables 0 items
  | v => v

/-- The value as a text, unless there is a number of too many digits in it. -/
def text? : Value → Option String
  | string s => some s
  | moment m => some m.text
  | tables _ items => (listed? (.tables 0 items)).map fun shown => "<AoT " ++ shown ++ ">"
  | table entries => listed? (.table (entries.map fun (k, v) => (k, v.uncovered)))
  | v => listed? v

/-! ## §2. What is in a value. -/

/-- The items of a list of values. -/
def items? : Value → Option (List Value)
  | array items => some items
  | tables _ items => some (items.map table)
  | _ => none

/-- Whether the value counts as given: neither nothing, nor false, nor a zero, nor empty. -/
def isFilled : Value → Bool
  | null => false
  | boolean b => b
  | integer n => n ≠ 0
  | float x => !x.isZero
  | string s => s ≠ ""
  | moment _ => true
  | array items => !items.isEmpty
  | table entries => !entries.isEmpty
  | tables _ items => !items.isEmpty

/-! ## §3. The text of a value that is given. -/

/-- A whole number is never written as nothing. -/
theorem toString_ne_empty (n : Int) : toString n ≠ "" := by
  cases n with
  | ofNat n => exact Nat.repr_ne_empty
  | negSucc n =>
    show "-" ++ Nat.repr (n + 1) ≠ ""
    simp

/-- A value that counts as given has no empty text. -/
theorem ne_empty_of_text? {v : Value} {s : String} (hv : v.isFilled = true)
    (h : v.text? = some s) : s ≠ "" := by
  have hshown : ∀ {items : Option (List String)} {write : List String → String},
      (∀ texts, write texts ≠ "") → items.map write = some s → s ≠ "" := by
    intro items write hwrite hitems
    obtain ⟨texts, -, rfl⟩ := Option.map_eq_some_iff.1 hitems
    exact hwrite texts
  cases v with
  | null => exact absurd hv (by simp [isFilled])
  | boolean b =>
    injection h with h
    cases b <;> rw [← h] <;> decide
  | integer n =>
    have h : wholeText? n = some s := h
    unfold wholeText? at h
    split at h
    · injection h with h
      exact h ▸ toString_ne_empty n
    · exact absurd h (by simp)
  | float x =>
    injection h with h
    exact h ▸ x.text_ne_empty
  | string s' =>
    injection h with h
    simpa [isFilled, h] using hv
  | moment m =>
    injection h with h
    exact h ▸ m.text_ne_empty
  | array items => exact hshown (fun texts => by simp [bracketed]) h
  | table entries => exact hshown (fun texts => by simp [braced]) h
  | tables covered items =>
    obtain ⟨shown, -, rfl⟩ := Option.map_eq_some_iff.1 h
    simp

end Value

end BuildPlan.Settings
