/-
  BuildPlan.Coordinate
  ────────────────────
  **THE IDENTITY OF A PROJECT.**

  A coordinate is a namespace and a name.  Its text form joins the two by a colon;
  reading one back trims the text, cuts it at the first colon, and refuses an
  empty part or a second colon.
-/
import BuildPlan.Text.Quoted

namespace BuildPlan

/-- The two-part identity of a project.  Either part may be any text. -/
structure Coordinate where
  /-- The namespace, such as `org.example`. -/
  space : String
  name : String
deriving DecidableEq, Repr, Inhabited

namespace Coordinate

/-- The text form, `namespace:name`. -/
def text (c : Coordinate) : String := c.space ++ ":" ++ c.name

instance : ToString Coordinate := ⟨text⟩

/-- A text that is no coordinate. -/
structure Malformed where
  /-- The text as it was given, padding included. -/
  value : String
deriving DecidableEq, Repr

/-- What is reported of a text that is no coordinate. -/
def Malformed.message (m : Malformed) : String :=
  "Invalid project coordinate " ++ Text.quoted m.value ++ ", expected namespace:name"

/-- The coordinate that a text stands for: one colon, and something on either side of it, once
the padding around the whole is gone. -/
def parse? (s : String) : Option Coordinate :=
  match Text.cut ':' (Text.trimChars s.toList) with
  | (_, none) => none
  | (space, some name) =>
    if space = [] ∨ name = [] ∨ ':' ∈ name then none
    else some ⟨String.ofList space, String.ofList name⟩

/-- Reads a coordinate, or hands back the text that is none. -/
def parse (s : String) : Except Malformed Coordinate :=
  match parse? s with
  | some c => .ok c
  | none => .error ⟨s⟩

/-- The texts of several coordinates, joined by the separator. -/
def texts (sep : String) (cs : List Coordinate) : String := Text.joined sep (cs.map text)

end Coordinate

end BuildPlan
