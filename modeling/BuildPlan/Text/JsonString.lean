/-
  BuildPlan.Text.JsonString
  ─────────────────────────
  **JSON STRINGS IN ASCII.**

  Every character from space to tilde stands for itself, the quote and the
  backslash behind a backslash.  Backspace, form feed, newline, return and tab are
  written by a letter; all else by its 16-bit units, two for a character beyond
  U+FFFF.
-/
import BuildPlan.Text.Hex
import BuildPlan.Text.Blank

namespace BuildPlan.Text

/-- The 16-bit units of a character. -/
def units16 (c : Char) : List Nat :=
  if c.toNat < 0x10000 then [c.toNat]
  else [0xD800 + (c.toNat - 0x10000) / 0x400, 0xDC00 + (c.toNat - 0x10000) % 0x400]

/-- A character inside a JSON string. -/
def jsonChar (c : Char) : List Char :=
  if c = '"' ∨ c = '\\' then ['\\', c]
  else if c = '\n' then ['\\', 'n']
  else if c = '\r' then ['\\', 'r']
  else if c = '\t' then ['\\', 't']
  else if c.toNat = 0x08 then ['\\', 'b']
  else if c.toNat = 0x0C then ['\\', 'f']
  else if 0x20 ≤ c.toNat ∧ c.toNat < 0x7F then [c]
  else (units16 c).flatMap fun u => '\\' :: 'u' :: hexChars 4 u

/-- The text as a JSON string. -/
def jsonString (s : String) : String :=
  String.ofList ('"' :: s.toList.flatMap jsonChar ++ ['"'])

/-- The texts as a JSON array on one line. -/
def jsonArray (texts : List String) : String :=
  "[" ++ joined ", " (texts.map jsonString) ++ "]"

end BuildPlan.Text
