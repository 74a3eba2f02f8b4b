/-
  BuildPlan.Plan
  ──────────────
  **WHAT TO BUILD, IN WHICH ORDER.**

  A plan holds the projects to build in building order and the graph of the whole
  reactor.  Questions about the prerequisites and dependents of a project consult
  the whole graph and answer with projects of the plan only.
-/
import BuildPlan.Digraph.Reach
import BuildPlan.Position
import BuildPlan.Precedence
import BuildPlan.Fault

namespace BuildPlan

/-- The projects to build and the graph that they were ordered by. -/
structure Plan where
  /-- The projects to build, in building order. -/
  projects : List Project
  /-- The graph of the whole reactor. -/
  graph : Digraph Coordinate

namespace Plan

/-- The coordinates of the projects to build, in building order. -/
def coordinates (p : Plan) : List Coordinate := p.projects.map Project.coordinate

/-- Whether the plan builds the project with the given coordinate. -/
def contains (p : Plan) (c : Coordinate) : Bool := c ∈ p.coordinates

/-- The projects of the plan among the given coordinates, in building order; of a project that is
built twice, its last place counts. -/
def inOrder (p : Plan) (found : List Coordinate) : List Project :=
  (lastPerKey Project.coordinate p.projects).filter fun q => q.coordinate ∈ found

/-- The projects of the plan that a look-up in the graph finds.  That the coordinate asked about is
in the graph is checked first, and the look-up starts from it. -/
def query (p : Plan) (c : Coordinate) (found : Except Coordinate (List Coordinate)) :
    Except Halt (List Project) :=
  if c ∉ p.graph.vertices then .error (.fault (.unresolved (.exact c) [] none))
  else (found.mapError .absent).map p.inOrder

/-- The projects of the plan that must be built before the given one: all of them, or those that it
names itself. -/
def prerequisitesOf (p : Plan) (c : Coordinate) (transitive : Bool) : Except Halt (List Project) :=
  p.query c (if transitive then p.graph.ancestors [c] else .ok (p.graph.predecessors c))

/-- The projects of the plan that build on the given one: all of them, or those that name it. -/
def dependentsOf (p : Plan) (c : Coordinate) (transitive : Bool) : Except Halt (List Project) :=
  p.query c (if transitive then p.graph.descendants [c] else .ok (p.graph.successors c))

/-- The plan on one line. -/
def shown (p : Plan) : String := "BuildSet([" ++ Coordinate.texts ", " p.coordinates ++ "])"

end Plan

/-- What planning comes to: a plan, or the fault that stopped it. -/
structure Outcome where
  plan? : Option Plan := none
  fault? : Option Fault := none

namespace Outcome

/-- Whether nothing stopped the planning. -/
def ok (o : Outcome) : Bool := o.fault?.isNone

/-- The exit status that the outcome calls for. -/
def exitCode (o : Outcome) : Int := o.fault?.elim 0 Fault.exitCode

/-- Why an outcome gives no plan. -/
inductive NoPlan where
  | fault (f : Fault)
  | neither
deriving DecidableEq, Repr

/-- What is reported of an outcome without a plan and without a fault. -/
def neitherMessage : String := "GraphBuildResult holds neither a build set nor an error"

/-- The plan, unless a fault stands against it. -/
def get (o : Outcome) : Except NoPlan Plan :=
  match o.fault?, o.plan? with
  | some f, _ => .error (.fault f)
  | none, some p => .ok p
  | none, none => .error .neither

end Outcome

end BuildPlan
