/-
  BuildPlan.Text.Quoted
  ─────────────────────
  **TEXT IN QUOTES, AS MESSAGES SHOW IT.**

  A message that names a text given by a user shows it in quotes, so that padding
  and control characters can be seen:

      quote     single, unless the text holds a single quote and no double one
      escaped   the backslash, the quote in use, newline, return and tab by a
                letter; any other character that does not print by its code
                point, in the shortest of the forms of two, four and eight digits
-/
import BuildPlan.Text.Hex
import BuildPlan.Text.Printable

namespace BuildPlan.Text

/-- The mark that a text is quoted with. -/
def quoteMark (cs : List Char) : Char :=
  if '\'' ∈ cs ∧ '"' ∉ cs then '"' else '\''

/-- The escape of a character by its code point. -/
def codePointEscape (c : Char) : List Char :=
  if c.toNat < 0x100 then '\\' :: 'x' :: hexChars 2 c.toNat
  else if c.toNat < 0x10000 then '\\' :: 'u' :: hexChars 4 c.toNat
  else '\\' :: 'U' :: hexChars 8 c.toNat

/-- A character as it stands between the given quotes. -/
def quotedChar (mark c : Char) : List Char :=
  if c = '\\' ∨ c = mark then ['\\', c]
  else if c = '\n' then ['\\', 'n']
  else if c = '\r' then ['\\', 'r']
  else if c = '\t' then ['\\', 't']
  else if isPrintable c then [c]
  else codePointEscape c

/-- The text in quotes. -/
def quoted (s : String) : String :=
  let mark := quoteMark s.toList
  String.ofList (mark :: s.toList.flatMap (quotedChar mark) ++ [mark])

end BuildPlan.Text
