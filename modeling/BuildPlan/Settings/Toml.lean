/-
  BuildPlan.Settings.Toml
  ───────────────────────
  **TOML, THE LANGUAGE OF THE DESCRIPTORS.**

  The program reads its descriptors as TOML 1.0 and shows a value by its text form.
  Whether a text is TOML is settled by the standard; what is said against a text that
  is none is this reader's own, and is one and the same for all of them.
-/
import BuildPlan.Settings.Document
import BuildPlan.Settings.Format

namespace BuildPlan.Settings

/-- What is said against a text that is no TOML; where it goes wrong is not said. -/
def Document.complaint : String := "not a TOML 1.0 document"

/-- The entries of a TOML text. -/
def Document.read (cs : List Char) : Except String Entries :=
  match read? cs with
  | some entries => .ok entries
  | none => .error complaint

/-- TOML 1.0. -/
instance toml : Format where
  read := Document.read
  text? := Value.text?
  ne_empty_of_text? := Value.ne_empty_of_text?

end BuildPlan.Settings
