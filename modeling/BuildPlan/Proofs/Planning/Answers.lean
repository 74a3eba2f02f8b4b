/-
  BuildPlan.Proofs.Planning.Answers
  ─────────────────────────────────
  **WHAT A PLAN ANSWERS ABOUT ANY PROJECT.**

  A plan can be asked about every project of the reactor that it was made from, also
  about one that it does not hold itself, and it can be asked for the next neighbours
  only or for all that a chain leads to (`Ahead`):

      prerequisitesOf p    the projects of the plan that are ahead of p
      dependentsOf p       the projects of the plan that p is ahead of

  The chains run through the whole reactor, the answers are parts of the plan.  So of
  two projects in the plan one is in an answer about the other exactly if the other is
  in the opposite answer about it, and it then stands where it should
  (`build_answers_queries`).
-/
import BuildPlan.Proofs.Planning.Queries

namespace BuildPlan

/-! ## §1. Directly and through others. -/

/-- `u` comes before `v`: through a chain of precedences if the question is a transitive one,
directly otherwise. -/
def Ahead (projects : List Project) : Bool → Coordinate → Coordinate → Prop
  | true => PrecedesVia projects
  | false => Precedes projects

theorem Ahead.precedesVia {projects : List Project} {transitive : Bool} {u v : Coordinate}
    (h : Ahead projects transitive u v) : PrecedesVia projects u v := by
  cases transitive with
  | true => exact h
  | false => exact .single h

/-! ## §2. The answers of a plan. -/

namespace Plan

/-- Asked for what must be built before `p`, the plan names `q`. -/
def Upstream (plan : Plan) (transitive : Bool) (q p : Project) : Prop :=
  ∃ found, plan.prerequisitesOf p.coordinate transitive = .ok found ∧ q ∈ found

/-- Asked for what builds on `p`, the plan names `q`. -/
def Downstream (plan : Plan) (transitive : Bool) (q p : Project) : Prop :=
  ∃ found, plan.dependentsOf p.coordinate transitive = .ok found ∧ q ∈ found

end Plan

namespace Planning

variable {projects : List Project} {request : Request} {root : Option Coordinate}
  {reactor : Reactor} {order : List Coordinate} {o : Outcome} {plan : Plan} {c : Coordinate}
  {transitive : Bool} {p q : Project}

/-- A question about a coordinate outside the reactor is refused, whatever is looked up. -/
theorem Carries.query_eq_error (h : Carries plan request reactor order) (hc : c ∉ reactor)
    (found : Except Coordinate (List Coordinate)) :
    plan.query c found = .error (.fault (.unresolved (.exact c) [] none)) := by
  have hvertex : c ∉ plan.graph.vertices := by
    rw [h.graph_eq, Precedence.mem_vertices_graph]
    exact hc
  unfold Plan.query
  rw [if_pos hvertex]

open scoped Classical in
/-- Asked about a project of the reactor, the plan names those of its projects that are ahead. -/
theorem Carries.prerequisitesOf_eq_ahead (h : Carries plan request reactor order)
    (horder : Canonical reactor order) (hc : c ∈ reactor) (transitive : Bool) :
    plan.prerequisitesOf c transitive =
      .ok (plan.projects.filter fun q => Ahead reactor.projects transitive q.coordinate c) := by
  cases transitive with
  | true => exact h.prerequisitesOf_eq horder hc
  | false =>
    unfold Plan.prerequisitesOf
    rw [if_neg Bool.false_ne_true, h.graph_eq]
    apply h.query_eq_of_mem_iff horder hc (P := fun d => Ahead reactor.projects false d c)
    intro d
    rw [Digraph.mem_predecessors]
    exact Precedence.edge_graph

open scoped Classical in
/-- Asked the other way round, it names those that the project is ahead of. -/
theorem Carries.dependentsOf_eq_ahead (h : Carries plan request reactor order)
    (horder : Canonical reactor order) (hc : c ∈ reactor) (transitive : Bool) :
    plan.dependentsOf c transitive =
      .ok (plan.projects.filter fun q => Ahead reactor.projects transitive c q.coordinate) := by
  cases transitive with
  | true => exact h.dependentsOf_eq horder hc
  | false =>
    unfold Plan.dependentsOf
    rw [if_neg Bool.false_ne_true, h.graph_eq]
    apply h.query_eq_of_mem_iff horder hc (P := fun d => Ahead reactor.projects false c d)
    intro d
    rw [Digraph.mem_successors]
    exact Precedence.edge_graph

/-- What has an answer inside the reactor and is refused with one fault outside is refused exactly
outside. -/
theorem eq_error_iff_not_mem {x : Except Halt (List Project)} {answer : List Project} {e e' : Halt}
    (hanswer : c ∈ reactor → x = .ok answer) (hfault : c ∉ reactor → x = .error e') :
    x = .error e ↔ c ∉ reactor ∧ e = e' := by
  by_cases hc : c ∈ reactor
  · rw [hanswer hc]
    simp [hc]
  · rw [hfault hc]
    simp [hc, eq_comm]

/-- A question is refused exactly if it is about a coordinate outside the reactor. -/
theorem Carries.prerequisitesOf_eq_error_iff (h : Carries plan request reactor order)
    (horder : Canonical reactor order) {e : Halt} :
    plan.prerequisitesOf c transitive = .error e ↔
      c ∉ reactor ∧ e = .fault (.unresolved (.exact c) [] none) := by
  classical
  exact eq_error_iff_not_mem (fun hc => h.prerequisitesOf_eq_ahead horder hc transitive)
    fun hc => h.query_eq_error hc _

/-- The opposite question is refused in the same cases and in the same way. -/
theorem Carries.dependentsOf_eq_error_iff (h : Carries plan request reactor order)
    (horder : Canonical reactor order) {e : Halt} :
    plan.dependentsOf c transitive = .error e ↔
      c ∉ reactor ∧ e = .fault (.unresolved (.exact c) [] none) := by
  classical
  exact eq_error_iff_not_mem (fun hc => h.dependentsOf_eq_ahead horder hc transitive)
    fun hc => h.query_eq_error hc _

theorem Carries.coordinate_mem (h : Carries plan request reactor order) (hp : p ∈ plan.projects) :
    p.coordinate ∈ reactor :=
  Reactor.mem_iff.2 ⟨p, h.mem p hp, rfl⟩

/-- The plan names one of its own projects as upstream of another exactly if it is ahead of it. -/
theorem Carries.upstream_iff (h : Carries plan request reactor order)
    (horder : Canonical reactor order) (hp : p ∈ plan.projects) :
    plan.Upstream transitive q p ↔
      q ∈ plan.projects ∧ Ahead reactor.projects transitive q.coordinate p.coordinate := by
  classical
  unfold Plan.Upstream
  rw [h.prerequisitesOf_eq_ahead horder (h.coordinate_mem hp)]
  simp

/-- The plan names one of its own projects as downstream of another exactly if that is ahead of it.
-/
theorem Carries.downstream_iff (h : Carries plan request reactor order)
    (horder : Canonical reactor order) (hp : p ∈ plan.projects) :
    plan.Downstream transitive q p ↔
      q ∈ plan.projects ∧ Ahead reactor.projects transitive p.coordinate q.coordinate := by
  classical
  unfold Plan.Downstream
  rw [h.dependentsOf_eq_ahead horder (h.coordinate_mem hp)]
  simp

/-! ## §3. The law of the answers. -/

open scoped Classical in
/-- **A plan refuses to answer exactly about a coordinate outside the reactor.  About any other it
answers with its projects that are ahead of the coordinate in the reactor, or that the coordinate is
ahead of, each once and as they stand in the plan.  So of two projects in a plan, one is upstream of
the other exactly if the other is downstream of it, and stands before it; and none is upstream of
itself.** -/
theorem build_answers_queries (h : (build projects request root).result = .ok o)
    (hplan : o.plan? = some plan) :
    ∃ reactor, Scoped projects root reactor ∧
      (∀ c transitive e,
        (plan.prerequisitesOf c transitive = .error e ↔
          c ∉ reactor ∧ e = .fault (.unresolved (.exact c) [] none)) ∧
        (plan.dependentsOf c transitive = .error e ↔
          c ∉ reactor ∧ e = .fault (.unresolved (.exact c) [] none))) ∧
      (∀ c ∈ reactor, ∀ transitive,
        plan.prerequisitesOf c transitive =
          .ok (plan.projects.filter fun q => Ahead reactor.projects transitive q.coordinate c) ∧
        plan.dependentsOf c transitive =
          .ok (plan.projects.filter fun q => Ahead reactor.projects transitive c q.coordinate)) ∧
      plan.projects.Nodup ∧
      ∀ p ∈ plan.projects, ∀ q ∈ plan.projects, ∀ transitive,
        (plan.Upstream transitive q p ↔ plan.Downstream transitive p q) ∧
        ¬ plan.Upstream transitive p p ∧
        (plan.Upstream transitive q p → StandsBefore plan.projects q p) := by
  obtain ⟨reactor, order, hbasis⟩ := exists_basis h hplan
  have horder := hbasis.canonical
  have hcarries := hbasis.carries
  have hnodup : plan.projects.Nodup := List.Nodup.of_map _ (hcarries.nodup horder)
  have hbefore : ∀ p ∈ plan.projects, ∀ q ∈ plan.projects, ∀ transitive,
      plan.Upstream transitive q p → StandsBefore plan.projects q p := by
    intro p hp q hq transitive hup
    have hahead := ((hcarries.upstream_iff horder hp).1 hup).2
    exact (hcarries.standsBefore_iff horder hq hp).2 (horder.standsBefore hahead.precedesVia)
  refine ⟨reactor, hbasis.scope, ?_, ?_, hnodup, ?_⟩
  · intro c transitive e
    exact ⟨hcarries.prerequisitesOf_eq_error_iff horder, hcarries.dependentsOf_eq_error_iff horder⟩
  · intro c hc transitive
    exact ⟨hcarries.prerequisitesOf_eq_ahead horder hc transitive,
      hcarries.dependentsOf_eq_ahead horder hc transitive⟩
  · intro p hp q hq transitive
    refine ⟨?_, ?_, hbefore p hp q hq transitive⟩
    · rw [hcarries.upstream_iff horder hp, hcarries.downstream_iff horder hq]
      simp only [hp, hq, true_and]
    · intro hself
      exact not_standsBefore_self hnodup p (hbefore p hp p hp transitive hself)

/-- All tools but the compiler, through which the app needs the runtime. -/
def withoutCompiler : Request := { excluded := [.text ":compiler"] }

open scoped Classical in
/-- The law at a plan without the compiler: the app still builds on the runtime, through a project
that the plan does not hold. -/
theorem build_answers_queries_compiler :
    ∃ o plan, (build tools withoutCompiler none).result = .ok o ∧ o.plan? = some plan ∧
      plan.coordinates = [⟨"org", "runtime"⟩, ⟨"org", "manual"⟩, ⟨"org", "app"⟩] ∧
      (plan.prerequisitesOf ⟨"org", "app"⟩ true).toOption.map (List.map Project.coordinate) =
        some [⟨"org", "runtime"⟩] ∧
      ∃ reactor, Scoped tools none reactor ∧
        (∀ c transitive e,
          (plan.prerequisitesOf c transitive = .error e ↔
            c ∉ reactor ∧ e = .fault (.unresolved (.exact c) [] none)) ∧
          (plan.dependentsOf c transitive = .error e ↔
            c ∉ reactor ∧ e = .fault (.unresolved (.exact c) [] none))) ∧
        (∀ c ∈ reactor, ∀ transitive,
          plan.prerequisitesOf c transitive =
            .ok (plan.projects.filter fun q => Ahead reactor.projects transitive q.coordinate c) ∧
          plan.dependentsOf c transitive =
            .ok (plan.projects.filter fun q => Ahead reactor.projects transitive c q.coordinate)) ∧
        plan.projects.Nodup ∧
        ∀ p ∈ plan.projects, ∀ q ∈ plan.projects, ∀ transitive,
          (plan.Upstream transitive q p ↔ plan.Downstream transitive p q) ∧
          ¬ plan.Upstream transitive p p ∧
          (plan.Upstream transitive q p → StandsBefore plan.projects q p) := by
  have hrun : ((build tools withoutCompiler none).result.toOption.bind Outcome.plan?).map
      (fun plan => (plan.coordinates,
        (plan.prerequisitesOf ⟨"org", "app"⟩ true).toOption.map (List.map Project.coordinate))) =
      some ([⟨"org", "runtime"⟩, ⟨"org", "manual"⟩, ⟨"org", "app"⟩], some [⟨"org", "runtime"⟩]) := by
    cbv
  obtain ⟨o, plan, hresult, hplan, hshown⟩ := exists_plan_of_map hrun
  obtain ⟨hcoordinates, hanswer⟩ := Prod.mk.inj hshown
  exact ⟨o, plan, hresult, hplan, hcoordinates, hanswer, build_answers_queries hresult hplan⟩

end Planning

end BuildPlan
