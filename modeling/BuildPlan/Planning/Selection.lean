/-
  BuildPlan.Planning.Selection
  ────────────────────────────
  **FROM A REQUEST TO THE PROJECTS TO BUILD.**

  The stages, in this order:

      resolve    every selector stands for one project, or the request fails
      start      the selected projects, or all if none is selected
      resume     without those before the resume point, which itself stays
      close      with prerequisites or dependents in the whole graph
      exclude    without the excluded projects, and nothing is closed again
      emit       what is left, in the given order

  Closing looks at the whole graph: neither the resume point nor an exclusion
  limits what is reached.  Places in the order, vertices of the graph and projects of
  the reactor are looked up on the way, and a look-up that finds nothing ends the
  stage with `Halt.absent`.
-/
import BuildPlan.Digraph.Reach
import BuildPlan.Planning.Journal
import BuildPlan.Position
import BuildPlan.Reactor.Resolve
import BuildPlan.Request

namespace BuildPlan

namespace Planning

/-! ## §1. The selectors of a request. -/

/-- The projects that the selectors of a request stand for. -/
structure Named where
  selected : List Coordinate
  excluded : List Coordinate
  resumeFrom : Option Coordinate
deriving DecidableEq, Repr

/-- Resolves every selector of the request: the selected ones, then the excluded ones, then the
resume point. -/
def resolve (reactor : Reactor) (request : Request) : Except Fault Named := do
  let selected ← reactor.resolveAll (some "selected projects") request.selected
  let excluded ← reactor.resolveAll (some "excluded projects") request.excluded
  let resumeFrom ← request.resumeFrom.mapM (reactor.resolve (some "resume from"))
  return ⟨selected, excluded, resumeFrom⟩

/-! ## §2. The sets of projects that the stages pass on. -/

/-- The selected projects, or all of them if none is selected. -/
def start (order selected : List Coordinate) : List Coordinate :=
  if selected = [] then distinct order else selected

/-- The members of the base that do not stand before the resume point, and the resume point. -/
def resume (order : List Coordinate) (point : Coordinate) (base : List Coordinate) :
    Except Coordinate (List Coordinate) :=
  match fromLast? point order with
  | none => .error point
  | some rest =>
    match base.find? (· ∉ order) with
    | some c => .error c
    | none =>
      let kept := base.filter (· ∈ rest)
      .ok (if point ∈ kept then kept else kept ++ [point])

/-- The base with what the request also makes, over the whole graph. -/
def close (graph : Digraph Coordinate) (how : AlsoMake) (base : List Coordinate) :
    Except Coordinate (List Coordinate) := do
  let before ← if how.includesPrerequisites then graph.ancestors base else .ok []
  let after ← if how.includesDependents then graph.descendants base else .ok []
  return distinct (base ++ before ++ after)

/-- The members of the order that are in the closed set and not excluded. -/
def emit (order closed excluded : List Coordinate) : List Coordinate :=
  order.filter fun c => c ∈ closed ∧ c ∉ excluded

/-! ## §3. The stages with their notes. -/

/-- The base, cut at the resume point if there is one. -/
def resumeStage (order : List Coordinate) (point? : Option Coordinate)
    (base : List Coordinate) : Journal Halt (List Coordinate) :=
  match point? with
  | none => return base
  | some point => do
    let kept ← .ofExcept ((resume order point base).mapError .absent)
    .note (.resumed point kept.length)
    return kept

/-- The base and what is made with it. -/
def closeStage (graph : Digraph Coordinate) (how : AlsoMake) (base : List Coordinate) :
    Journal Halt (List Coordinate) := do
  let closed ← .ofExcept ((close graph how base).mapError .absent)
  .noteIf (how ≠ .nothing) (.alsoMade how base.length closed.length)
  return closed

/-- The projects with the given coordinates, or the first coordinate that no project has. -/
def projectsAt (reactor : Reactor) (coordinates : List Coordinate) :
    Except Coordinate (List Project) :=
  coordinates.mapM fun c =>
    match reactor.get? c with
    | some p => .ok p
    | none => .error c

/-- The projects with the given coordinates, unless there are none; `options` is what was asked
for. -/
def emitStage (reactor : Reactor) (options : String) (coordinates : List Coordinate) :
    Journal Halt (List Project) := do
  let chosen ← .ofExcept ((projectsAt reactor coordinates).mapError .absent)
  if chosen = [] then .ofExcept (.error (.fault (.nothingLeft options)))
  else
    .note (.settled (chosen.map Project.coordinate))
    return chosen

/-! ## §4. All stages. -/

/-- The projects to build for a request, in the given order. -/
def select (order : List Coordinate) (graph : Digraph Coordinate) (reactor : Reactor)
    (request : Request) : Journal Halt (List Project) := do
  let named ← .ofExcept ((resolve reactor request).mapError .fault)
  let base ← resumeStage order named.resumeFrom (start order named.selected)
  let closed ← closeStage graph request.alsoMake base
  emitStage reactor request.describe (emit order closed named.excluded)

end Planning

end BuildPlan
