/-
  BuildPlan.Precedence
  ────────────────────
  **WHAT MUST BE BUILT BEFORE WHAT.**

  A project comes after its parent and after each of its dependencies.  Only
  links between the given projects count; a link to any other project is settled
  elsewhere and puts no order on these.

      p.parent = some q       q → p, unless p is its own parent
      q ∈ p.dependencies      q → p, also when p depends on itself

  Child modules put no order on projects.
-/
import BuildPlan.Digraph.Basic
import BuildPlan.Project

namespace BuildPlan

/-- The coordinates that have to come before a project, its parent first. -/
def Project.prerequisites (p : Project) : List Coordinate :=
  (p.parent.filter (· ≠ p.coordinate)).toList ++ p.dependencies

namespace Precedence

/-- The links between the given projects, in order of declaration. -/
def links (projects : List Project) : List (Coordinate × Coordinate) :=
  projects.flatMap fun p =>
    (p.prerequisites.filter (· ∈ projects.map Project.coordinate)).map fun c => (c, p.coordinate)

/-- The graph of the given projects: every coordinate is a vertex, in order of discovery, and
every link between them an edge. -/
def graph (projects : List Project) : Digraph Coordinate :=
  (links projects).foldl (fun g e => g.insertEdge e.1 e.2)
    ((projects.map Project.coordinate).foldl Digraph.insertVertex Digraph.empty)

end Precedence

end BuildPlan
