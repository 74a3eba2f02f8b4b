/-
  BuildPlan.Settings.Format
  ─────────────────────────
  **WHAT IS ASKED OF A LANGUAGE OF SETTINGS.**

  A descriptor is a text in some language of settings.  Of that language, loading
  makes use of two things only:

      read     the entries that a text holds, or what is said against it
      text?    the text that stands for a value, if there is one

  and of one law: a value that counts as given is not shown as nothing.  So all that
  is said about loading holds of any `Format`; which texts are well formed, what is
  said against the others and how a value is shown are its own affair.
-/
import BuildPlan.Settings.Value

namespace BuildPlan.Settings

/-- A language that settings are written in. -/
class Format where
  /-- The entries in a text, or what is said against it. -/
  read : List Char → Except String Entries
  /-- The text of a value, if it has one. -/
  text? : Value → Option String
  /-- A value that counts as given has no empty text. -/
  ne_empty_of_text? {v : Value} {s : String} :
    v.isFilled = true → text? v = some s → s ≠ ""

end BuildPlan.Settings
