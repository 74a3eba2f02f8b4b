/-
  BuildPlan.Workspace.Path
  ────────────────────────
  **DIRECTORIES AND FILES BY THEIR NAMES.**

  A path is the list of names that lead to it from the top.  A text is resolved
  against a directory by its marks alone:

      /…     starts at the top
      .      stays where it is, and so does nothing at all between slashes
      ..     goes one name back, and at the top nowhere

  A backslash is a character like any other.
-/
import BuildPlan.Text.Blank

namespace BuildPlan.Workspace

/-- The place of a file or directory, as the names from the top to it. -/
structure Path where
  names : List String
deriving DecidableEq, Repr

namespace Path

/-- The top of all paths. -/
def top : Path := ⟨[]⟩

/-- The file or directory of the given name in a directory. -/
def child (p : Path) (name : String) : Path := ⟨p.names ++ [name]⟩

/-- The directory that a path lies in; the top lies in itself. -/
def parent (p : Path) : Path := ⟨p.names.dropLast⟩

/-- The path that one mark of a text leads to. -/
def step (p : Path) (mark : String) : Path :=
  if mark = "" ∨ mark = "." then p else if mark = ".." then p.parent else p.child mark

/-- Whether a text starts at the top. -/
def isAbsolute (text : String) : Bool := text.toList.head? = some '/'

/-- The marks of a text, which slashes separate. -/
def marks (text : String) : List String := (Text.fields '/' text.toList).map String.ofList

/-- The path that a text leads to from a directory. -/
def resolve (base : Path) (text : String) : Path :=
  (marks text).foldl step (if isAbsolute text then top else base)

/-- The path as a text. -/
def text (p : Path) : String := "/" ++ Text.joined "/" p.names

/-- What is left of two lists without their common beginning. -/
def apart : List String → List String → List String × List String
  | a :: as, b :: bs => if a = b then apart as bs else (a :: as, b :: bs)
  | as, bs => (as, bs)

/-- The way from a directory to a path: back out of what is not common, and on from there. -/
def relativeTo (p base : Path) : String :=
  let (out, on) := apart base.names p.names
  let way := out.map (fun _ => "..") ++ on
  if way = [] then "." else Text.joined "/" way

/-- Whether a text holds the character zero, which no file system takes. -/
def holdsNull (text : String) : Bool := text.toList.any fun c => c.toNat = 0

/-- The path that a text leads to from a directory, if a file system can take the text. -/
def resolve? (base : Path) (text : String) : Option Path :=
  if holdsNull text then none else some (base.resolve text)

end Path

end BuildPlan.Workspace
