/-
  BuildPlan.Settings.Pieces
  ─────────────────────────
  **THE PIECES THAT HEADERS PUT A TABLE TOGETHER FROM.**

  The headers that lead through a table need not stand together.  Those that do make
  up one piece of it:

      [a.b.x]     begins a piece of a, and in it a piece of b
      [[a.b.y]]   lies in the same pieces
      [c]
      [[a.b.y]]   begins another piece of a, and in it another piece of b

  A header leads on through the pieces on the way of the header before it.  The
  rest of its way are new pieces, and so is a table with a header of its own.  An
  item of a list is a scope: headers in it do not change the way outside, to which
  the first header behind the item leads back.
-/
import BuildPlan.Settings.Lexeme

namespace BuildPlan.Settings

/-! ## §1. The way of a header. -/

/-- One piece of a table. -/
structure Piece where
  name : String
  /-- Whether the table has its own header there. -/
  isHeaded : Bool
  /-- What tells the piece from all others. -/
  number : Nat
deriving DecidableEq, Repr

namespace Piece

/-- The pieces at the front that bear the given names. -/
def shared : List Piece → List String → List Piece
  | p :: trail, name :: names => if p.name = name then p :: shared trail names else []
  | _, _ => []

/-- Pieces of tables without a header, numbered from `next` on. -/
def begin : Nat → List String → List Piece
  | _, [] => []
  | next, name :: names => ⟨name, false, next⟩ :: begin (next + 1) names

end Piece

/-! ## §2. Scopes. -/

/-- The whole text, or an item of a list that headers may still lead into. -/
structure Scope where
  /-- The names that lead to it. -/
  path : List String := []
  /-- The number of the one piece that it is. -/
  number : Nat := 0
  /-- The pieces on the way of the latest header in it, the outermost first. -/
  trail : List Piece := []
deriving DecidableEq, Repr

/-- Where the headers of a text have led so far. -/
structure Pieces where
  /-- The open scopes, the innermost first; none before the first header. -/
  scopes : List Scope := []
  /-- The number of the next piece. -/
  next : Nat := 1
deriving DecidableEq, Repr

namespace Pieces

/-- The innermost scope that a header lies in and the scopes around it. -/
def enter (p : Pieces) (key : Key) : Scope × List Scope :=
  match p.scopes.dropWhile fun s => !s.path.isPrefixOf key.parents with
  | [] => ({}, [])
  | s :: outer => (s, outer)

/-- The pieces on the way to the last name of a header, within its scope. -/
def lead (p : Pieces) (key : Key) : List Piece :=
  let scope := (p.enter key).1
  let names := key.parents.drop scope.path.length
  let shared := Piece.shared scope.trail names
  shared ++ Piece.begin p.next (names.drop shared.length)

/-- The pieces of the way before that stand behind those that a header leads through, if it begins
none: up to a table with a header of its own, they can still go on. -/
def remaining (p : Pieces) (key : Key) : List Piece :=
  let trail := (p.enter key).1.trail
  let lead := p.lead key
  if lead = trail.take lead.length then
    (trail.drop lead.length).takeWhile fun piece => !piece.isHeaded
  else []

/-- The pieces after the header of a table. -/
def openTable (p : Pieces) (key : Key) : Pieces :=
  let (scope, outer) := p.enter key
  let lead := p.lead key
  let own : Piece := ⟨key.last, true, p.next + lead.length⟩
  ⟨{ scope with trail := lead ++ [own] } :: outer, own.number + 1⟩

/-- The number of the piece that an item of a list lies in, by the header of the item. -/
def holder (p : Pieces) (key : Key) : Nat :=
  ((p.lead key).getLast?.map Piece.number).getD (p.enter key).1.number

/-- The pieces after the header of an item of a list. -/
def openItem (p : Pieces) (key : Key) : Pieces :=
  let (scope, outer) := p.enter key
  let lead := p.lead key
  let item : Scope := { path := key.path, number := p.next + lead.length }
  ⟨item :: { scope with trail := lead ++ p.remaining key } :: outer, item.number + 1⟩

end Pieces

end BuildPlan.Settings
