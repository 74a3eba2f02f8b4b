/-
  BuildPlan.Planning.Build
  ────────────────────────
  **FROM PROJECTS TO A PLAN.**

  The stages, each of which may end the planning with a fault:

      collect    no coordinate is declared twice
      narrow     the root project, if one is given, is there
      relate     the precedence graph has no cycle
      order      one building order of all projects
      select     the request leaves something to build

  A fault becomes part of the outcome; there is never a partial plan.  A look-up that
  finds nothing would be no outcome at all (`Halt.absent`).
-/
import BuildPlan.Digraph.Cycle
import BuildPlan.Digraph.Order
import BuildPlan.Plan
import BuildPlan.Planning.Selection
import BuildPlan.Reactor.Narrow

namespace BuildPlan.Planning

/-! ## §1. The stages before selection. -/

/-- The reactor narrowed to a root project, if one is given.  That the root is there is checked
first, and narrowing looks it up again. -/
def narrow (reactor : Reactor) : Option Coordinate → Except Halt Reactor
  | none => .ok reactor
  | some root =>
    if root ∉ reactor then .error (.fault (.unresolved (.exact root) [] (some "root")))
    else
      match reactor.narrow? root with
      | some narrowed => .ok narrowed
      | none => .error (.absent root)

/-- The precedence graph of the projects. -/
def relate (projects : List Project) : Journal Halt (Digraph Coordinate) := do
  let graph := Precedence.graph projects
  .note (.related graph.vertices.length graph.edges.length)
  return graph

/-- A fault if the graph has a cycle. -/
def checkAcyclic (graph : Digraph Coordinate) : Except Fault Unit :=
  match graph.findCycle with
  | some cycle => .error (.cyclic cycle)
  | none => .ok ()

/-- One building order of the whole graph. -/
def order (graph : Digraph Coordinate) : Journal Halt (List Coordinate) := do
  let order ← .ofExcept (graph.buildOrder.mapError fun cycle => .fault (.cyclic cycle))
  .note (.ordered order)
  return order

/-! ## §2. All stages. -/

/-- A plan for the request over a reactor, of which only the root project and its modules count
if a root is given. -/
def planReactor (reactor : Reactor) (request : Request) (root : Option Coordinate) :
    Journal Halt Plan := do
  let reactor ← .ofExcept (narrow reactor root)
  let graph ← relate reactor.projects
  .ofExcept ((checkAcyclic graph).mapError .fault)
  let order ← order graph
  let chosen ← select order graph reactor request
  return ⟨chosen, graph⟩

/-- A plan for the request over the given projects. -/
def plan (projects : List Project) (request : Request) (root : Option Coordinate) :
    Journal Halt Plan := do
  let reactor ← .ofExcept ((Reactor.ofList projects).mapError .fault)
  planReactor reactor request root

/-! ## §3. The outcome. -/

/-- The outcome of planning: a fault is part of it and is noted; the look-up of an absent
coordinate is none. -/
def outcome (attempt : Journal Halt Plan) : Journal Coordinate Outcome :=
  match attempt.result with
  | .ok plan => ⟨attempt.notes, .ok (.mk (some plan) none)⟩
  | .error (.fault f) => ⟨attempt.notes ++ [.failed f], .ok (.mk none (some f))⟩
  | .error (.absent c) => ⟨attempt.notes, .error c⟩

/-- The outcome of planning for the given projects. -/
def build (projects : List Project) (request : Request) (root : Option Coordinate) :
    Journal Coordinate Outcome :=
  outcome (plan projects request root)

/-- The outcome of planning for a reactor that is already put together. -/
def buildReactor (reactor : Reactor) (request : Request) (root : Option Coordinate) :
    Journal Coordinate Outcome :=
  outcome (planReactor reactor request root)

end BuildPlan.Planning
