/-
  BuildPlan.Reactor.Resolve
  ─────────────────────────
  **FROM SELECTORS TO PROJECTS.**

  The form of a selector decides how it is looked up:

      a coordinate      the project with that coordinate
      ns:name           the project with the coordinate that the text reads as
      :name             the projects of that name
      anything else     the projects of that name or, if there are none, the
                        projects in that directory

  A selector stands for a project only if the look-up finds that one project;
  several are reported as candidates.
-/
import BuildPlan.Reactor.Basic

namespace BuildPlan.Reactor

/-- The projects that a text without a colon names: by name, or else by directory. -/
def lookupBare (r : Reactor) (s : String) : List Project :=
  if r.named s = [] then r.located s else r.named s

/-- The projects that a selector names, in order of discovery. -/
def lookup (r : Reactor) : Selector → List Project
  | .exact c => (r.get? c).toList
  | .text s =>
    match Text.cut ':' s.toList with
    | (_, none) => r.lookupBare s
    | ([], some name) => r.named (String.ofList name)
    | (_ :: _, some _) => ((Coordinate.parse? s).bind r.get?).toList

/-- The one project that the selector stands for.  `origin` is the option it was given for. -/
def resolve (r : Reactor) (origin : Option String) (s : Selector) : Except Fault Coordinate :=
  match r.lookup s with
  | [p] => .ok p.coordinate
  | ps => .error (.unresolved s (ps.map Project.coordinate) origin)

/-- The projects that the selectors stand for, without repeats; the first selector that stands
for none is reported. -/
def resolveAll (r : Reactor) (origin : Option String) (selectors : List Selector) :
    Except Fault (List Coordinate) :=
  (selectors.mapM (r.resolve origin)).map distinct

end BuildPlan.Reactor
