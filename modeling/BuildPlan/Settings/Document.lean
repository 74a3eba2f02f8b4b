/-
  BuildPlan.Settings.Document
  ───────────────────────────
  **A SETTINGS TEXT AS A TABLE.**

  A text of TOML 1.0 is a sequence of statements, one to a line or, within arrays
  and long strings, to several:

      key = value     gives a name its value, in the current table
      [key]           makes a table current
      [[key]]         adds a table to a list and makes it current

  `Document.read?` gives the table that all statements together describe, and
  nothing for a text that is no such sequence or whose statements are at odds.
-/
import BuildPlan.Settings.Outline
import BuildPlan.Settings.Pieces
import BuildPlan.Settings.Scalar

namespace BuildPlan.Settings.Document

/-! ## §1. Values. -/

mutual

/-- A value. -/
def value : Nat → Reader Value
  | 0, _ => none
  | fuel + 1, cs =>
    match cs with
    | '"' :: _ | '\'' :: _ => (stringLexeme cs).map fun (s, rest) => (.string s, rest)
    | '[' :: rest => (items fuel rest).map fun (vs, rest) => (.array vs, rest)
    | '\x7b' :: rest =>
      match skipSpaces rest with
      | '\x7d' :: rest => some (.table [], rest)
      | rest => (pairs fuel [] rest).map fun (o, rest) => (.table (Outline.finish o), rest)
    | _ =>
      let (word, rest) := wordLexeme cs
      (scalar? word).map (·, rest)

/-- The items of an array up to its closing bracket, each but the last before a comma. -/
def items : Nat → Reader (List Value)
  | 0, _ => none
  | fuel + 1, cs => do
    let cs ← skipLines (cs.length + 1) cs
    match cs with
    | ']' :: rest => return ([], rest)
    | cs =>
      let (v, rest) ← value fuel cs
      match ← skipLines (rest.length + 1) rest with
      | ']' :: rest => return ([v], rest)
      | ',' :: rest =>
        let (vs, rest) ← items fuel rest
        return (v :: vs, rest)
      | _ => none

/-- The entries of a table on one line up to its closing brace, at least one of them. -/
def pairs : Nat → Outline → Reader Outline
  | 0, _, _ => none
  | fuel + 1, o, cs => do
    let (key, rest) ← keyLexeme (cs.length + 1) cs
    match rest with
    | '=' :: rest =>
      let (v, rest) ← value fuel (skipSpaces rest)
      let o ← Outline.assign key v o
      match skipSpaces rest with
      | '\x7d' :: rest => return (o, rest)
      | ',' :: rest => pairs fuel o (skipSpaces rest)
      | _ => none
    | _ => none

end

/-! ## §2. Statements. -/

/-- One statement of a settings text. -/
inductive Statement where
  /-- Gives a name its value. -/
  | assign (key : Key) (v : Value)
  /-- Makes a table current. -/
  | openTable (key : Key)
  /-- Adds a table to a list and makes it current. -/
  | openItem (key : Key)

/-- The statement at the front of a text. -/
def statement : Reader Statement
  | '[' :: '[' :: rest => do
    let (key, rest) ← keyLexeme (rest.length + 1) (skipSpaces rest)
    match rest with
    | ']' :: ']' :: rest => return (.openItem key, rest)
    | _ => none
  | '[' :: rest => do
    let (key, rest) ← keyLexeme (rest.length + 1) (skipSpaces rest)
    match rest with
    | ']' :: rest => return (.openTable key, rest)
    | _ => none
  | cs => do
    let (key, rest) ← keyLexeme (cs.length + 1) cs
    match rest with
    | '=' :: rest =>
      let (v, rest) ← value (2 * rest.length + 2) (skipSpaces rest)
      return (.assign key v, rest)
    | _ => none

/-- The statements of a text, in order. -/
def statements : Nat → List Char → Option (List Statement)
  | 0, _ => none
  | fuel + 1, cs => do
    match ← skipLines (cs.length + 1) cs with
    | [] => return []
    | cs =>
      let (s, rest) ← statement cs
      return s :: (← statements fuel (← nextLine rest))

/-! ## §3. The whole text. -/

/-- A table in the making and the names that lead to its current part. -/
structure Progress where
  root : Outline := []
  /-- The way to the current part. -/
  current : List String := []
  /-- Where the headers have led. -/
  pieces : Pieces := {}

/-- What a statement adds, unless it is at odds with those before it. -/
def Progress.add (p : Progress) : Statement → Option Progress
  | .assign key v => do
    let root ← Outline.descend Outline.enterHeader (Outline.assign key v) p.current p.root
    return { p with root }
  | .openTable key => do
    let root ← Outline.openTable key p.root
    return ⟨root, key.path, p.pieces.openTable key⟩
  | .openItem key => do
    let root ← Outline.openItem key (p.pieces.holder key) p.root
    return ⟨root, key.path, p.pieces.openItem key⟩

/-- The table that a settings text describes. -/
def read? (cs : List Char) : Option Entries := do
  let all ← statements (cs.length + 1) cs
  let p ← all.foldlM Progress.add {}
  return Outline.finish p.root

end BuildPlan.Settings.Document
