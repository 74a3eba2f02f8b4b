/-
  BuildPlan.Proofs.Planning.Course
  ────────────────────────────────
  **HOW PLANNING CAN END.**

  Planning ends in one of six ways, and `Course` says of each under what
  circumstances and with what outcome:

      clash         two projects share a coordinate
      unknownRoot   the root is not among the projects
      circular      the projects in scope need each other in a ring
      unresolved    a selector stands for no project
      nothing       no project is wanted
      planned       the wanted projects, in building order

  Every run takes one of these courses (`exists_course`); in particular no look-up
  on the way fails.  What is said about planning elsewhere is read off the courses.
  That no order is refused once the check has passed is
  `order_agrees_with_checkAcyclic`.
-/
import BuildPlan.Planning.Build
import BuildPlan.Proofs.Digraph.FirstCycle
import BuildPlan.Proofs.Planning.Stages

namespace BuildPlan

namespace Outcome

/-- The outcome that is a plan. -/
def made (plan : Plan) : Outcome := ⟨some plan, none⟩

/-- The outcome that is a fault. -/
def stopped (fault : Fault) : Outcome := ⟨none, some fault⟩

theorem made_ne_stopped (plan : Plan) (fault : Fault) : made plan ≠ stopped fault := by
  intro h
  injection h with h
  exact absurd h (by simp)

end Outcome

namespace Planning

open Reactor (Clash preorder)

/-! ## §1. The projects in scope. -/

/-- All projects, or those that the root and its modules lead to. -/
def narrowed (projects : List Project) : Option Coordinate → List Project
  | none => projects
  | some root => preorder projects [root]

/-- The projects in scope make up the reactor. -/
structure Scoped (projects : List Project) (root : Option Coordinate) (reactor : Reactor) :
    Prop where
  /-- No coordinate is repeated. -/
  distinct : ¬ Clash projects
  /-- The root is one of the projects. -/
  root_mem : ∀ c, root = some c → c ∈ projects.map Project.coordinate
  /-- The reactor holds what the root leaves. -/
  projects_eq : reactor.projects = narrowed projects root

/-- A root that is there passes the check, and the look-up behind the check finds it. -/
theorem narrow_of_mem {whole : Reactor} {c : Coordinate} (hc : c ∈ whole) :
    narrow whole (some c) = .ok ⟨preorder whole.projects [c],
      Reactor.preorder_coordinates_nodup _ _ whole.coordinates_nodup⟩ := by
  have h : whole.narrow? c = some _ := if_pos hc
  unfold narrow
  simp only [hc, not_true, if_false, h]

/-- A root that is not there is caught by the check. -/
theorem narrow_of_not_mem {whole : Reactor} {c : Coordinate} (hc : c ∉ whole) :
    narrow whole (some c) = .error (.fault (.unresolved (.exact c) [] (some "root"))) :=
  if_pos hc

/-- Where no coordinate is repeated and the root is there, putting together and narrowing succeed.
-/
theorem exists_scoped {projects : List Project} {root : Option Coordinate}
    (hclash : ¬ Clash projects) (hroot : ∀ c, root = some c → c ∈ projects.map Project.coordinate) :
    ∃ whole reactor, Reactor.ofList projects = .ok whole ∧ narrow whole root = .ok reactor ∧
      Scoped projects root reactor := by
  obtain ⟨whole, hwhole, rfl⟩ := Reactor.exists_ofList hclash
  cases root with
  | none => exact ⟨whole, whole, hwhole, rfl, hclash, hroot, rfl⟩
  | some c => exact ⟨whole, _, hwhole, narrow_of_mem (hroot c rfl), hclash, hroot, rfl⟩

/-- Without a root, all projects of a reactor are in scope. -/
theorem scoped_self (reactor : Reactor) : Scoped reactor.projects none reactor := by
  refine ⟨not_not_intro reactor.coordinates_nodup, ?_, rfl⟩
  intro c hc
  exact absurd hc (by simp)

theorem Scoped.mem_projects {projects : List Project} {root : Option Coordinate}
    {reactor : Reactor} (h : Scoped projects root reactor) {p : Project}
    (hp : p ∈ reactor.projects) : p ∈ projects := by
  rw [h.projects_eq] at hp
  cases root with
  | none => exact hp
  | some c => exact Reactor.preorder_subset projects [c] p hp

theorem Canonical.of_buildOrder {reactor : Reactor} {order : List Coordinate}
    (h : (Precedence.graph reactor.projects).buildOrder = .ok order) : Canonical reactor order :=
  Digraph.isBuildOrder_of_buildOrder h

/-! ## §2. The courses. -/

open scoped Classical in
/-- The plan holds the wanted projects of the reactor, in building order. -/
structure Carries (plan : Plan) (request : Request) (reactor : Reactor)
    (order : List Coordinate) : Prop where
  /-- The coordinates are the wanted ones, and stand as in the order. -/
  coordinates_eq : plan.coordinates = order.filter (request.Wanted reactor order ·)
  /-- The projects are those of the reactor. -/
  mem : ∀ p ∈ plan.projects, p ∈ reactor.projects
  /-- The graph is that of the whole reactor. -/
  graph_eq : plan.graph = Precedence.graph reactor.projects

/-- How planning for the given projects ends. -/
inductive Course (projects : List Project) (request : Request) (root : Option Coordinate) :
    Outcome → Prop
  /-- Two projects share a coordinate. -/
  | clash {p q : Project} (hclash : Clash projects) (hbefore : StandsBefore projects p q)
      (hpq : p.coordinate = q.coordinate) :
      Course projects request root (.stopped (.duplicate q.coordinate [p.path, q.path]))
  /-- The root is not among the projects. -/
  | unknownRoot {c : Coordinate} (hclash : ¬ Clash projects) (hroot : root = some c)
      (hc : c ∉ projects.map Project.coordinate) :
      Course projects request root (.stopped (.unresolved (.exact c) [] (some "root")))
  /-- The projects in scope need each other in a ring. -/
  | circular {reactor : Reactor} {cycle : List Coordinate} (hscope : Scoped projects root reactor)
      (hcycle : (Precedence.graph reactor.projects).IsCycle cycle) :
      Course projects request root (.stopped (.cyclic cycle))
  /-- A selector stands for no project. -/
  | unresolved {reactor : Reactor} {order : List Coordinate} {s : Selector} {origin : String}
      (hscope : Scoped projects root reactor)
      (horder : (Precedence.graph reactor.projects).buildOrder = .ok order)
      (hfirst : request.entries.find? (fun e => ¬ reactor.Resolves e.1) = some (s, origin)) :
      Course projects request root
        (.stopped (.unresolved s ((reactor.lookup s).map Project.coordinate) (some origin)))
  /-- No project is wanted. -/
  | nothing {reactor : Reactor} {order : List Coordinate} (hscope : Scoped projects root reactor)
      (horder : (Precedence.graph reactor.projects).buildOrder = .ok order)
      (hresolves : ∀ e ∈ request.entries, reactor.Resolves e.1)
      (hnone : ¬ ∃ c, request.Wanted reactor order c) :
      Course projects request root (.stopped (.nothingLeft request.describe))
  /-- The wanted projects, in building order. -/
  | planned {reactor : Reactor} {order : List Coordinate} {plan : Plan}
      (hscope : Scoped projects root reactor)
      (horder : (Precedence.graph reactor.projects).buildOrder = .ok order)
      (hresolves : ∀ e ∈ request.entries, reactor.Resolves e.1)
      (hsome : ∃ c, request.Wanted reactor order c)
      (hcarries : Carries plan request reactor order) :
      Course projects request root (.made plan)

/-! ## §3. The check and the order. -/

/-- The check complains of the cycle that the search reports. -/
theorem checkAcyclic_eq_error_iff {graph : Digraph Coordinate} {cycle : List Coordinate} :
    checkAcyclic graph = .error (.cyclic cycle) ↔ graph.findCycle = some cycle := by
  unfold checkAcyclic
  cases graph.findCycle with
  | none => simp
  | some cycle' => simp

theorem checkAcyclic_eq_ok_iff {graph : Digraph Coordinate} :
    checkAcyclic graph = .ok () ↔ graph.findCycle = none := by
  unfold checkAcyclic
  cases graph.findCycle with
  | none => simp
  | some cycle => simp

/-- The stage hands on the build order, and a cycle as a fault. -/
theorem result_order (graph : Digraph Coordinate) :
    (order graph).result = graph.buildOrder.mapError fun cycle => .fault (.cyclic cycle) := by
  unfold order
  rw [Journal.result_bind, Journal.result_ofExcept]
  cases graph.buildOrder <;> rfl

theorem result_order_eq_error_iff {graph : Digraph Coordinate} {cycle : List Coordinate} :
    (order graph).result = .error (.fault (.cyclic cycle)) ↔ graph.buildOrder = .error cycle := by
  rw [result_order]
  cases graph.buildOrder with
  | ok l => simp [Except.mapError]
  | error cycle' => simp [Except.mapError]

/-- **The check and the order agree on every graph.  The walk for an order runs into a cycle exactly
if the search reports one, and it is the same one, from its first vertex to its last; the complaints
made of it are the same.  Otherwise there is an order, and the check passes.** -/
theorem order_agrees_with_checkAcyclic (graph : Digraph Coordinate) :
    (∀ cycle, graph.buildOrder = .error cycle ↔ graph.findCycle = some cycle) ∧
      (∀ cycle, (order graph).result = .error (.fault (.cyclic cycle)) ↔
        checkAcyclic graph = .error (.cyclic cycle)) ∧
      ((∃ l, graph.buildOrder = .ok l) ↔ checkAcyclic graph = .ok ()) := by
  refine ⟨?_, ?_, ?_⟩
  · intro cycle
    exact Digraph.findCycle_eq_some_iff.symm
  · intro cycle
    rw [result_order_eq_error_iff, checkAcyclic_eq_error_iff, Digraph.findCycle_eq_some_iff]
  · rw [checkAcyclic_eq_ok_iff, Digraph.findCycle_eq_none_iff_exists]

variable {projects : List Project} {request : Request} {root : Option Coordinate}

/-! ## §4. The result of planning, stage by stage. -/

theorem result_build_of_ok {plan' : Plan} (h : (plan projects request root).result = .ok plan') :
    (build projects request root).result = .ok (.made plan') := by
  unfold build outcome
  rw [h]
  rfl

theorem result_build_of_fault {f : Fault}
    (h : (plan projects request root).result = .error (.fault f)) :
    (build projects request root).result = .ok (.stopped f) := by
  unfold build outcome
  rw [h]
  rfl

theorem result_plan_of_ofList_error {f : Fault} (h : Reactor.ofList projects = .error f) :
    (plan projects request root).result = .error (.fault f) := by
  unfold plan
  exact Journal.result_bind_of_error (Journal.result_mapError_of_error h _) _

variable {whole reactor : Reactor}

theorem result_plan_of_ofList (h : Reactor.ofList projects = .ok whole) :
    (plan projects request root).result = (planReactor whole request root).result := by
  unfold plan
  exact Journal.result_bind_of_ok (Journal.result_mapError_of_ok h _) _

/-- Planning stops where narrowing does. -/
theorem result_planReactor_of_narrow_error {halt : Halt} (h : narrow whole root = .error halt) :
    (planReactor whole request root).result = .error halt := by
  unfold planReactor
  exact Journal.result_bind_of_error ((Journal.result_ofExcept _).trans h) _

theorem result_relate (projects : List Project) :
    (relate projects).result = .ok (Precedence.graph projects) := rfl

/-- Planning stops at a ring among the projects in scope. -/
theorem result_planReactor_of_findCycle {cycle : List Coordinate}
    (hnarrow : narrow whole root = .ok reactor)
    (h : (Precedence.graph reactor.projects).findCycle = some cycle) :
    (planReactor whole request root).result = .error (.fault (.cyclic cycle)) := by
  unfold planReactor
  rw [Journal.result_bind_of_ok ((Journal.result_ofExcept _).trans hnarrow),
    Journal.result_bind_of_ok (result_relate reactor.projects)]
  exact Journal.result_bind_of_error
    (Journal.result_mapError_of_error (checkAcyclic_eq_error_iff.2 h) _) _

/-- With a build order, all that is left is the selection. -/
theorem result_planReactor_of_buildOrder {l : List Coordinate}
    (hnarrow : narrow whole root = .ok reactor)
    (h : (Precedence.graph reactor.projects).buildOrder = .ok l) :
    (planReactor whole request root).result =
      (select l (Precedence.graph reactor.projects) reactor request).result.map
        fun chosen => ⟨chosen, Precedence.graph reactor.projects⟩ := by
  have hcheck : checkAcyclic (Precedence.graph reactor.projects) = .ok () :=
    checkAcyclic_eq_ok_iff.2 (Digraph.findCycle_eq_none_iff_exists.2 ⟨l, h⟩)
  have horder : (order (Precedence.graph reactor.projects)).result = .ok l := by
    rw [result_order, h]
    rfl
  unfold planReactor
  rw [Journal.result_bind_of_ok ((Journal.result_ofExcept _).trans hnarrow),
    Journal.result_bind_of_ok (result_relate reactor.projects),
    Journal.result_bind_of_ok (Journal.result_mapError_of_ok hcheck _),
    Journal.result_bind_of_ok horder, Journal.result_bind]
  cases (select l (Precedence.graph reactor.projects) reactor request).result <;> rfl

/-! ## §5. Every run takes one of the courses. -/

open scoped Classical in
/-- **Planning ends, and in one of the six ways.** -/
theorem exists_course (projects : List Project) (request : Request) (root : Option Coordinate) :
    ∃ o, (build projects request root).result = .ok o ∧ Course projects request root o := by
  by_cases hclash : Clash projects
  · obtain ⟨p, q, hbefore, hpq, herror⟩ := Reactor.exists_clash hclash
    exact ⟨_, result_build_of_fault (result_plan_of_ofList_error herror),
      .clash hclash hbefore hpq⟩
  by_cases hroot : ∀ c, root = some c → c ∈ projects.map Project.coordinate
  · obtain ⟨whole, reactor, hwhole, hnarrow, hscope⟩ := exists_scoped hclash hroot
    cases hcycle : (Precedence.graph reactor.projects).findCycle with
    | some cycle =>
      refine ⟨_, result_build_of_fault ?_, .circular hscope (Digraph.isCycle_of_findCycle hcycle)⟩
      rw [result_plan_of_ofList hwhole]
      exact result_planReactor_of_findCycle hnarrow hcycle
    | none =>
      -- the check has found no ring, so the walk behind it cannot be blocked
      obtain ⟨order, horder⟩ := Digraph.findCycle_eq_none_iff_exists.1 hcycle
      have hplan : (plan projects request root).result = _ :=
        (result_plan_of_ofList hwhole).trans (result_planReactor_of_buildOrder hnarrow horder)
      cases hfirst : request.entries.find? (fun e => ¬ reactor.Resolves e.1) with
      | some e =>
        refine ⟨_, result_build_of_fault ?_, .unresolved hscope horder hfirst⟩
        rw [hplan, select_of_find? hfirst]
        rfl
      | none =>
        have hresolves : ∀ e ∈ request.entries, reactor.Resolves e.1 :=
          find?_not_eq_none_iff.1 hfirst
        have hcanonical := Canonical.of_buildOrder horder
        obtain ⟨chosen, hcoordinates, hmem, hselect⟩ := exists_select hcanonical hresolves
        rw [hselect] at hplan
        -- the selection is empty exactly if nothing is wanted
        have hnil := filter_wanted_eq_nil_iff request hcanonical
        rw [← hcoordinates, List.map_eq_nil_iff] at hnil
        by_cases hsome : ∃ c, request.Wanted reactor order c
        · rw [if_neg fun h => hnil.1 h hsome] at hplan
          exact ⟨_, result_build_of_ok hplan,
            .planned hscope horder hresolves hsome ⟨hcoordinates, hmem, rfl⟩⟩
        · rw [if_pos (hnil.2 hsome)] at hplan
          exact ⟨_, result_build_of_fault hplan, .nothing hscope horder hresolves hsome⟩
  · -- the root is named by a coordinate that no project has
    rw [not_forall] at hroot
    obtain ⟨c, hroot⟩ := hroot
    rw [Classical.not_imp] at hroot
    obtain ⟨hc, hmem⟩ := hroot
    obtain ⟨whole, hwhole, rfl⟩ := Reactor.exists_ofList hclash
    refine ⟨_, result_build_of_fault ?_, .unknownRoot hclash hc hmem⟩
    rw [result_plan_of_ofList hwhole, hc]
    exact result_planReactor_of_narrow_error (narrow_of_not_mem hmem)

end Planning

end BuildPlan
