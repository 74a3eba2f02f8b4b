/-
  BuildPlan.Proofs.Planning.Contents
  ──────────────────────────────────
  **WHAT A PLAN HOLDS.**

  A plan carries the wanted part of the build order of the projects in scope, and
  its projects stand in it as they stand in the whole order (`Carries`).  Every plan
  rests on a scope and an order (`Basis`, `exists_basis`), and there is a plan as soon
  as something is wanted (`exists_plan`).  Two things follow:

      build_respects_needs   in every plan, what a project needs stands before it
      build_eq_wanted        without a ring and with every selector resolved, the
                             plan is exactly the wanted part, and there is none
                             exactly if nothing is wanted

  Narrowing, selecting, resuming and excluding only leave projects out, so the
  first needs nothing but the build order of the projects in scope.
-/
import BuildPlan.Proofs.Planning.Course
import Mathlib.Control.Traversable.Instances

namespace BuildPlan.Planning

variable {projects : List Project} {request : Request} {root : Option Coordinate}
  {reactor : Reactor} {order : List Coordinate} {o : Outcome} {plan : Plan}

/-! ## §1. How the wanted projects stand. -/

/-- A plan holds no project twice. -/
theorem Carries.nodup (h : Carries plan request reactor order) (horder : Canonical reactor order) :
    plan.coordinates.Nodup := by
  rw [h.coordinates_eq]
  exact horder.nodup.filter _

/-- The coordinates of the plan are the wanted ones. -/
theorem Carries.mem_coordinates_iff (h : Carries plan request reactor order)
    (horder : Canonical reactor order) {c : Coordinate} :
    c ∈ plan.coordinates ↔ request.Wanted reactor order c := by
  classical
  rw [h.coordinates_eq, List.mem_filter, decide_eq_true_eq]
  refine and_iff_right_of_imp ?_
  intro hc
  exact horder.mem_iff.2 hc.mem

/-- The projects of the plan are the wanted ones of the reactor. -/
theorem Carries.mem_projects_iff (h : Carries plan request reactor order)
    (horder : Canonical reactor order) {p : Project} :
    p ∈ plan.projects ↔ p ∈ reactor.projects ∧ request.Wanted reactor order p.coordinate := by
  rw [← h.mem_coordinates_iff horder]
  constructor
  · intro hp
    exact ⟨h.mem p hp, List.mem_map_of_mem hp⟩
  · intro hp
    obtain ⟨hp, hc⟩ := hp
    -- the plan has a project at this coordinate, and the reactor only one
    obtain ⟨q, hq, hqp⟩ := List.mem_map.1 hc
    rw [← List.inj_on_of_nodup_map reactor.coordinates_nodup (h.mem q hq) hp hqp]
    exact hq

/-- The projects of the plan stand in it as they stand in the whole order. -/
theorem Carries.standsBefore_iff (h : Carries plan request reactor order)
    (horder : Canonical reactor order) {p q : Project} (hp : p ∈ plan.projects)
    (hq : q ∈ plan.projects) :
    StandsBefore plan.projects p q ↔ StandsBefore order p.coordinate q.coordinate := by
  classical
  have hwanted : ∀ r ∈ plan.projects,
      decide (request.Wanted reactor order r.coordinate) = true := by
    intro r hr
    exact decide_eq_true ((h.mem_projects_iff horder).1 hr).2
  constructor
  · intro hbefore
    have hcoordinates : StandsBefore plan.coordinates p.coordinate q.coordinate :=
      hbefore.map Project.coordinate
    rw [h.coordinates_eq] at hcoordinates
    exact hcoordinates.mono List.filter_sublist
  · intro hbefore
    -- both are wanted, so the filter keeps them and how they stand
    have hcoordinates : StandsBefore plan.coordinates p.coordinate q.coordinate := by
      rw [h.coordinates_eq]
      exact hbefore.filter (hwanted p hp) (hwanted q hq)
    exact hcoordinates.of_map (h.nodup horder) hp hq

/-- A project that is needed stands before the one that needs it, if the plan holds both. -/
theorem Carries.standsBefore (h : Carries plan request reactor order)
    (horder : Canonical reactor order) {p q : Project} (hp : p ∈ plan.projects)
    (hq : q ∈ plan.projects) (hneeds : q.Needs p.coordinate) : StandsBefore plan.projects p q := by
  have hprecedes := hneeds.precedes (h.mem p hp) (h.mem q hq)
  exact (h.standsBefore_iff horder hp hq).2
    (horder.forward _ _ (Precedence.edge_graph.2 hprecedes))

/-- A project that needs itself would stand before itself. -/
theorem Carries.not_mem_dependencies (h : Carries plan request reactor order)
    (horder : Canonical reactor order) {p : Project} (hp : p ∈ plan.projects) :
    p.coordinate ∉ p.dependencies := by
  intro hself
  have hbefore := h.standsBefore horder hp hp (.inr hself)
  exact not_standsBefore_self (List.Nodup.of_map _ (h.nodup horder)) p hbefore

/-! ## §2. The courses that lead to a plan. -/

/-- What a plan rests on: the projects in scope, their build order, and selectors that each stand
for one of them. -/
structure Basis (projects : List Project) (request : Request) (root : Option Coordinate)
    (plan : Plan) (reactor : Reactor) (order : List Coordinate) : Prop where
  /-- The reactor holds the projects in scope. -/
  scope : Scoped projects root reactor
  /-- The order is the build order of all of them. -/
  buildOrder_eq : (Precedence.graph reactor.projects).buildOrder = .ok order
  /-- Every selector of the request stands for one of them. -/
  resolves : ∀ e ∈ request.entries, reactor.Resolves e.1
  /-- The plan holds the wanted ones. -/
  carries : Carries plan request reactor order

theorem Basis.canonical (h : Basis projects request root plan reactor order) :
    Canonical reactor order :=
  .of_buildOrder h.buildOrder_eq

theorem Course.exists_basis (h : Course projects request root o) (hplan : o.plan? = some plan) :
    ∃ reactor order, Basis projects request root plan reactor order := by
  cases h with
  | @planned reactor order plan hscope horder hresolves _ hcarries =>
    injection hplan with hplan
    subst hplan
    exact ⟨reactor, order, hscope, horder, hresolves, hcarries⟩
  | _ => exact absurd hplan (by simp [Outcome.stopped])

/-- Every plan has a basis. -/
theorem exists_basis (h : (build projects request root).result = .ok o)
    (hplan : o.plan? = some plan) :
    ∃ reactor order, Basis projects request root plan reactor order := by
  obtain ⟨o', ho', hcourse⟩ := exists_course projects request root
  rw [h] at ho'
  injection ho' with ho'
  subst ho'
  exact hcourse.exists_basis hplan

/-- What a computation shows of the plan is so of the plan that is made. -/
theorem exists_plan_of_map {β : Type} {f : Plan → β} {b : β}
    (h : ((build projects request root).result.toOption.bind Outcome.plan?).map f = some b) :
    ∃ o plan, (build projects request root).result = .ok o ∧ o.plan? = some plan ∧ f plan = b := by
  obtain ⟨o, hresult, -⟩ := exists_course projects request root
  rw [hresult] at h
  obtain ⟨plan, hplan, hb⟩ := Option.map_eq_some_iff.1 h
  exact ⟨o, plan, hresult, hplan, hb⟩

theorem Course.exists_carries (h : Course projects request root o) (hplan : o.plan? = some plan) :
    ∃ reactor order, Scoped projects root reactor ∧ Canonical reactor order ∧
      Carries plan request reactor order := by
  obtain ⟨reactor, order, hbasis⟩ := h.exists_basis hplan
  exact ⟨reactor, order, hbasis.scope, hbasis.canonical, hbasis.carries⟩

/-- **In every plan, no coordinate occurs twice, every project is one of the given ones, and what
a project needs stands before it.** -/
theorem build_respects_needs (h : (build projects request root).result = .ok o)
    (hplan : o.plan? = some plan) :
    plan.coordinates.Nodup ∧ (∀ p ∈ plan.projects, p ∈ projects) ∧
      (∀ p ∈ plan.projects, ∀ q ∈ plan.projects,
        (q.parent = some p.coordinate ∧ p.coordinate ≠ q.coordinate) ∨
            p.coordinate ∈ q.dependencies →
          StandsBefore plan.projects p q) ∧
      ∀ p ∈ plan.projects, p.coordinate ∉ p.dependencies := by
  -- the run takes one course, and only one kind of course has a plan
  obtain ⟨o', ho', hcourse⟩ := exists_course projects request root
  rw [h] at ho'
  injection ho' with ho'
  subst ho'
  obtain ⟨reactor, order, hscope, horder, hcarries⟩ := hcourse.exists_carries hplan
  refine ⟨hcarries.nodup horder, ?_, ?_, ?_⟩
  · intro p hp
    exact hscope.mem_projects (hcarries.mem p hp)
  · intro p hp q hq hneeds
    exact hcarries.standsBefore horder hp hq hneeds
  · intro p hp
    exact hcarries.not_mem_dependencies horder hp

/-- A parent, its two children, of which the second needs the first, and a project apart. -/
def family : List Project :=
  [{ coordinate := ⟨"org", "apart"⟩ },
    { coordinate := ⟨"org", "second"⟩, parent := some ⟨"org", "parent"⟩,
      dependencies := [⟨"org", "first"⟩] },
    { coordinate := ⟨"org", "first"⟩, parent := some ⟨"org", "parent"⟩ },
    { coordinate := ⟨"org", "parent"⟩ }]

/-- The second child without the first, and what it needs. -/
def secondOnly : Request :=
  { selected := [.text "second"], excluded := [.text ":first"], alsoMake := .prerequisites }

/-- The law at the second child and what it needs, from which the first child is excluded. -/
theorem build_respects_needs_family :
    ∃ o plan, (build family secondOnly none).result = .ok o ∧ o.plan? = some plan ∧
      plan.coordinates = [⟨"org", "parent"⟩, ⟨"org", "second"⟩] ∧
        plan.coordinates.Nodup ∧ (∀ p ∈ plan.projects, p ∈ family) ∧
          (∀ p ∈ plan.projects, ∀ q ∈ plan.projects,
            (q.parent = some p.coordinate ∧ p.coordinate ≠ q.coordinate) ∨
                p.coordinate ∈ q.dependencies →
              StandsBefore plan.projects p q) ∧
          ∀ p ∈ plan.projects, p.coordinate ∉ p.dependencies := by
  have hrun : ((build family secondOnly none).result.toOption.bind Outcome.plan?).map
      Plan.coordinates = some [⟨"org", "parent"⟩, ⟨"org", "second"⟩] := by cbv
  obtain ⟨o, hresult, -⟩ := exists_course family secondOnly none
  rw [hresult] at hrun
  obtain ⟨plan, hplan, hcoordinates⟩ := Option.map_eq_some_iff.1 hrun
  exact ⟨o, plan, hresult, hplan, hcoordinates, build_respects_needs hresult hplan⟩

/-! ## §3. The plan in full. -/

theorem Scoped.unique {reactor' : Reactor} (h : Scoped projects root reactor)
    (h' : Scoped projects root reactor') : reactor = reactor' :=
  Reactor.eq_of_projects_eq (h.projects_eq.trans h'.projects_eq.symm)

/-- Without a ring and with every selector resolved, planning can only end in two ways. -/
theorem Course.nothing_or_carries (h : Course projects request root o)
    (hscope : Scoped projects root reactor) (hacyclic : ¬ Circular reactor.projects)
    (hresolves : ∀ e ∈ request.entries, reactor.Resolves e.1) :
    ∃ order, (Precedence.graph reactor.projects).buildOrder = .ok order ∧
      ((o = .stopped (.nothingLeft request.describe) ∧ ¬ ∃ c, request.Wanted reactor order c) ∨
        ∃ plan, o = .made plan ∧ (∃ c, request.Wanted reactor order c) ∧
          Carries plan request reactor order) := by
  cases h with
  | clash hclash => exact absurd hclash hscope.distinct
  | @unknownRoot c _ hroot hc => exact absurd (hscope.root_mem c hroot) hc
  | circular hscope' hcycle =>
    cases hscope.unique hscope'
    exact absurd (Precedence.acyclic_graph_iff.2 hacyclic) hcycle.not_acyclic
  | unresolved hscope' _ hfirst =>
    cases hscope.unique hscope'
    rw [find?_not_eq_none_iff.2 hresolves] at hfirst
    exact absurd hfirst (by simp)
  | @nothing _ order hscope' horder _ hnone =>
    cases hscope.unique hscope'
    exact ⟨order, horder, .inl ⟨rfl, hnone⟩⟩
  | @planned _ order plan hscope' horder _ hsome hcarries =>
    cases hscope.unique hscope'
    exact ⟨order, horder, .inr ⟨plan, rfl, hsome, hcarries⟩⟩

/-- With a build order, every selector resolved and something wanted, there is a plan. -/
theorem exists_plan (hscope : Scoped projects root reactor)
    (horder : (Precedence.graph reactor.projects).buildOrder = .ok order)
    (hresolves : ∀ e ∈ request.entries, reactor.Resolves e.1)
    (hsome : ∃ c, request.Wanted reactor order c) :
    ∃ plan, (build projects request root).result = .ok (.made plan) ∧
      Basis projects request root plan reactor order := by
  obtain ⟨o, hresult, hcourse⟩ := exists_course projects request root
  obtain ⟨order', horder', hend⟩ :=
    hcourse.nothing_or_carries hscope (Canonical.of_buildOrder horder).not_circular hresolves
  rw [horder] at horder'
  injection horder' with horder'
  subst horder'
  rcases hend with ⟨-, hnone⟩ | ⟨plan, rfl, -, hcarries⟩
  · exact absurd hsome hnone
  · exact ⟨plan, hresult, hscope, horder, hresolves, hcarries⟩

open scoped Classical in
/-- **Without a ring in scope and with every selector resolved, the plan holds exactly the wanted
part of the build order, and there is none exactly if nothing is wanted.** -/
theorem build_eq_wanted (hscope : Scoped projects root reactor)
    (hacyclic : ¬ Circular reactor.projects)
    (hresolves : ∀ e ∈ request.entries, reactor.Resolves e.1) :
    ∃ order o, (Precedence.graph reactor.projects).buildOrder = .ok order ∧
      (build projects request root).result = .ok o ∧
        (o = .stopped (.nothingLeft request.describe) ↔ ¬ ∃ c, request.Wanted reactor order c) ∧
          ((∃ plan, o = .made plan) ↔ ∃ c, request.Wanted reactor order c) ∧
            ∀ plan, o = .made plan →
              plan.coordinates = order.filter (request.Wanted reactor order ·) ∧
                ∀ p ∈ plan.projects, p ∈ reactor.projects := by
  obtain ⟨o, hresult, hcourse⟩ := exists_course projects request root
  obtain ⟨order, horder, hend⟩ := hcourse.nothing_or_carries hscope hacyclic hresolves
  refine ⟨order, o, horder, hresult, ?_⟩
  rcases hend with ⟨rfl, hnone⟩ | ⟨plan, rfl, hsome, hcarries⟩
  · -- nothing is wanted, and the outcome is no plan
    have hne : ∀ plan, Outcome.stopped (.nothingLeft request.describe) ≠ .made plan := by
      intro plan h
      exact Outcome.made_ne_stopped _ _ h.symm
    refine ⟨iff_of_true rfl hnone, iff_of_false (not_exists.2 hne) hnone, ?_⟩
    intro plan h
    exact absurd h (hne plan)
  · -- something is wanted, and the outcome is the plan that carries it
    refine ⟨iff_of_false (Outcome.made_ne_stopped _ _) (not_not_intro hsome),
      iff_of_true ⟨plan, rfl⟩ hsome, ?_⟩
    intro plan' h
    cases h
    exact ⟨hcarries.coordinates_eq, hcarries.mem⟩

/-- The reactor of the family. -/
def familyReactor : Reactor := ⟨family, by decide⟩

open scoped Classical in
/-- The law at the same request. -/
theorem build_eq_wanted_family :
    Scoped family none familyReactor ∧ ¬ Circular familyReactor.projects ∧
      (∀ e ∈ secondOnly.entries, familyReactor.Resolves e.1) ∧
      ∃ order o, (Precedence.graph familyReactor.projects).buildOrder = .ok order ∧
        (build family secondOnly none).result = .ok o ∧
          (o = .stopped (.nothingLeft secondOnly.describe) ↔
            ¬ ∃ c, secondOnly.Wanted familyReactor order c) ∧
            ((∃ plan, o = .made plan) ↔ ∃ c, secondOnly.Wanted familyReactor order c) ∧
              ∀ plan, o = .made plan →
                plan.coordinates = order.filter (secondOnly.Wanted familyReactor order ·) ∧
                  ∀ p ∈ plan.projects, p ∈ familyReactor.projects := by
  have hscope : Scoped family none familyReactor := by
    refine ⟨?_, ?_, rfl⟩
    · exact not_not_intro familyReactor.coordinates_nodup
    · intro c hc
      exact absurd hc (by simp)
  have horder : (Precedence.graph familyReactor.projects).buildOrder =
      .ok [⟨"org", "parent"⟩, ⟨"org", "first"⟩, ⟨"org", "second"⟩, ⟨"org", "apart"⟩] := by cbv
  have hacyclic : ¬ Circular familyReactor.projects :=
    (Canonical.of_buildOrder horder).not_circular
  have hresolves : ∀ e ∈ secondOnly.entries, familyReactor.Resolves e.1 := by decide +kernel
  exact ⟨hscope, hacyclic, hresolves, build_eq_wanted hscope hacyclic hresolves⟩

end BuildPlan.Planning
