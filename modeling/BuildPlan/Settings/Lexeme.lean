/-
  BuildPlan.Settings.Lexeme
  ─────────────────────────
  **THE SMALLEST PARTS OF A SETTINGS TEXT.**

  Spaces, comments, keys and the four kinds of strings of TOML 1.0.  A reader takes
  its part off the front of the text and returns it with the rest; it returns
  nothing where the text does not begin with such a part.
-/
import BuildPlan.Text.Hex

namespace BuildPlan.Settings

/-- Takes something off the front of a text. -/
abbrev Reader (α : Type) := List Char → Option (α × List Char)

/-! ## §1. Spaces and comments. -/

/-- Whether a character separates parts of a line. -/
def isSpace (c : Char) : Bool := c = ' ' ∨ c = '\t'

/-- Whether a character is a control character other than the tab.  Of these only the newline has a
place, between lines. -/
def isControl (c : Char) : Bool := (c.toNat < 0x20 ∧ c ≠ '\t') ∨ c.toNat = 0x7F

/-- The text without the spaces at its front. -/
def skipSpaces (cs : List Char) : List Char := cs.dropWhile isSpace

/-- The text without the comment at its front, if there is one; nothing if the comment holds a
control character. -/
def skipComment : List Char → Option (List Char)
  | '#' :: cs =>
    if (cs.takeWhile (· ≠ '\n')).any isControl then none else some (cs.dropWhile (· ≠ '\n'))
  | cs => some cs

/-- The text from the next line on, if only spaces and a comment stand before it. -/
def nextLine (cs : List Char) : Option (List Char) :=
  match skipComment (skipSpaces cs) with
  | some [] => some []
  | some ('\n' :: rest) => some rest
  | _ => none

/-- The text without spaces, comments and newlines at its front. -/
def skipLines : Nat → List Char → Option (List Char)
  | 0, _ => none
  | fuel + 1, cs =>
    match skipComment (skipSpaces cs) with
    | some ('\n' :: rest) => skipLines fuel rest
    | r => r

/-! ## §2. Strings on one line. -/

/-- What the letter after a backslash stands for. -/
def escapes : List (Char × Char) :=
  [('b', '\x08'), ('t', '\t'), ('n', '\n'), ('f', '\x0c'), ('r', '\r'), ('"', '"'), ('\\', '\\')]

/-- The character with the code point that the digits name, unless it is none. -/
def codePoint (digits : List Char) : Option Char := do
  let values ← digits.mapM Text.hexValue?
  let n := values.foldl (fun acc v => 16 * acc + v) 0
  if n.isValidChar then some (Char.ofNat n) else none

/-- Puts a character in front of what a reader took. -/
def andThen (c : Char) (r : Option (List Char × List Char)) : Option (List Char × List Char) :=
  r.map fun (s, rest) => (c :: s, rest)

/-- A string with escapes, from behind its opening quote to behind its closing one. -/
def basicString : Reader (List Char)
  | [] => none
  | '"' :: rest => some ([], rest)
  | '\\' :: 'u' :: a :: b :: c :: d :: rest =>
    (codePoint [a, b, c, d]).bind fun x => andThen x (basicString rest)
  | '\\' :: 'U' :: a :: b :: c :: d :: e :: f :: g :: h :: rest =>
    (codePoint [a, b, c, d, e, f, g, h]).bind fun x => andThen x (basicString rest)
  | '\\' :: e :: rest => (escapes.lookup e).bind fun x => andThen x (basicString rest)
  | c :: rest => if isControl c then none else andThen c (basicString rest)

/-- A string without escapes, from behind its opening quote to behind its closing one. -/
def literalString : Reader (List Char)
  | [] => none
  | '\'' :: rest => some ([], rest)
  | c :: rest => if isControl c then none else andThen c (literalString rest)

/-! ## §3. Strings over several lines. -/

/-- The end of a string over several lines: up to two more quotes belong to the string. -/
def closing (quote : Char) (cs : List Char) : List Char × List Char :=
  let extra := (cs.takeWhile (· = quote)).take 2
  (extra, cs.drop extra.length)

/-- Where a reader of a string over several lines stands. -/
inductive LineMode where
  | inText
  /-- Behind a backslash that must be the last mark on its line. -/
  | afterBackslash
  /-- In the blank stretch that such a backslash takes out of the text. -/
  | inBlank
deriving DecidableEq, Repr

/-- A string with escapes over several lines, from behind its opening to behind its closing. -/
def basicLines : LineMode → Reader (List Char)
  | _, [] => none
  | .afterBackslash, c :: rest =>
    if c = '\n' then basicLines .inBlank rest
    else if isSpace c then basicLines .afterBackslash rest
    else none
  | _, '"' :: '"' :: '"' :: rest => some (closing '"' rest)
  | _, '\\' :: '\n' :: rest => basicLines .inBlank rest
  | _, '\\' :: ' ' :: rest => basicLines .afterBackslash rest
  | _, '\\' :: '\t' :: rest => basicLines .afterBackslash rest
  | _, '\\' :: 'u' :: a :: b :: c :: d :: rest =>
    (codePoint [a, b, c, d]).bind fun x => andThen x (basicLines .inText rest)
  | _, '\\' :: 'U' :: a :: b :: c :: d :: e :: f :: g :: h :: rest =>
    (codePoint [a, b, c, d, e, f, g, h]).bind fun x => andThen x (basicLines .inText rest)
  | _, '\\' :: e :: rest => (escapes.lookup e).bind fun x => andThen x (basicLines .inText rest)
  | mode, c :: rest =>
    if mode = .inBlank ∧ (isSpace c ∨ c = '\n') then basicLines .inBlank rest
    else if isControl c ∧ c ≠ '\n' then none
    else andThen c (basicLines .inText rest)

/-- A string without escapes over several lines, from behind its opening to behind its closing. -/
def literalLines : Reader (List Char)
  | [] => none
  | '\'' :: '\'' :: '\'' :: rest => some (closing '\'' rest)
  | c :: rest => if isControl c ∧ c ≠ '\n' then none else andThen c (literalLines rest)

/-- The text without a newline at its front. -/
def dropNewline : List Char → List Char
  | '\n' :: rest => rest
  | cs => cs

/-- A string of any kind. -/
def stringLexeme : Reader String
  | '"' :: '"' :: '"' :: rest =>
    (basicLines .inText (dropNewline rest)).map fun (s, r) => (String.ofList s, r)
  | '\'' :: '\'' :: '\'' :: rest =>
    (literalLines (dropNewline rest)).map fun (s, r) => (String.ofList s, r)
  | '"' :: rest => (basicString rest).map fun (s, r) => (String.ofList s, r)
  | '\'' :: rest => (literalString rest).map fun (s, r) => (String.ofList s, r)
  | _ => none

/-! ## §4. Keys. -/

/-- Whether a character may stand in a key without quotes. -/
def isBare (c : Char) : Bool := c.isAlphanum ∨ c = '_' ∨ c = '-'

/-- One part of a key: a word, or a string on one line. -/
def keyPart : Reader String
  | '"' :: rest => (basicString rest).map fun (s, r) => (String.ofList s, r)
  | '\'' :: rest => (literalString rest).map fun (s, r) => (String.ofList s, r)
  | cs =>
    match cs.takeWhile isBare with
    | [] => none
    | word => some (String.ofList word, cs.dropWhile isBare)

/-- A key: the tables it leads through and the name at its end. -/
structure Key where
  /-- The tables, the outermost first. -/
  parents : List String
  last : String
deriving DecidableEq, Repr

/-- The names of a key, the outermost first. -/
def Key.path (key : Key) : List String := key.parents ++ [key.last]

/-- Parts of a key joined by dots, with the spaces behind it. -/
def keyLexeme : Nat → Reader Key
  | 0, _ => none
  | fuel + 1, cs => do
    let (part, rest) ← keyPart cs
    match skipSpaces rest with
    | '.' :: rest =>
      let (key, rest) ← keyLexeme fuel (skipSpaces rest)
      return (⟨part :: key.parents, key.last⟩, rest)
    | rest => return (⟨[], part⟩, rest)

end BuildPlan.Settings
