/-
  BuildPlan.Proofs.Planning.Queries
  ─────────────────────────────────
  **ASKING A PLAN, AND PLANNING FOR ONE PROJECT.**

  There are two ways to learn what a project builds on.  A plan of everything can be
  asked for its prerequisites, or the project alone can be selected and planned with
  them.  The first looks the graph up and sorts what it finds by its place in the plan;
  the second closes a set over the graph and reads the build order through.

      the full plan      … a … b … p … c … d …
      prerequisitesOf p    a   b
      dependentsOf p                  c   d
      planned with both    a   b   p  c   d

  Both come to the same lists (`build_alone_eq_queries`): what a path leads to `p` from
  stands before `p` in the build order, and what a path leads to from `p` behind it.
-/
import BuildPlan.Proofs.Planning.Contents

namespace BuildPlan

/-- The project with the given coordinate, and what is made along with it. -/
def Request.alone (c : Coordinate) (how : AlsoMake) : Request :=
  { selected := [.exact c], alsoMake := how }

/-! ## §1. What a plan answers. -/

/-- A plan without repeats answers with the projects that were found, as they stand in it. -/
theorem Plan.inOrder_eq {plan : Plan} (h : plan.coordinates.Nodup) (found : List Coordinate) :
    plan.inOrder found = plan.projects.filter fun q => q.coordinate ∈ found := by
  unfold Plan.inOrder
  rw [lastPerKey_of_nodup h]

namespace Planning

variable {projects : List Project} {request : Request} {root : Option Coordinate}
  {reactor : Reactor} {order : List Coordinate} {plan full : Plan} {c d : Coordinate} {p : Project}

/-- A question about a project of the reactor passes the check and is answered. -/
theorem Carries.query_eq (h : Carries plan request reactor order) (horder : Canonical reactor order)
    (hc : c ∈ reactor) (found : List Coordinate) :
    plan.query c (.ok found) = .ok (plan.projects.filter fun q => q.coordinate ∈ found) := by
  have hvertex : c ∈ plan.graph.vertices := by
    rw [h.graph_eq]
    exact Precedence.mem_vertices_graph.2 hc
  unfold Plan.query
  rw [if_neg (not_not_intro hvertex), ← Plan.inOrder_eq (h.nodup horder)]
  rfl

theorem forall_mem_vertices (hc : c ∈ reactor) :
    ∀ v ∈ [c], v ∈ (Precedence.graph reactor.projects).vertices := by
  intro v hv
  rw [List.mem_singleton.1 hv]
  exact Precedence.mem_vertices_graph.2 hc

/-- An answer is the projects of the plan with the property that the look-up looks for. -/
theorem Carries.query_eq_of_mem_iff (h : Carries plan request reactor order)
    (horder : Canonical reactor order) (hc : c ∈ reactor) {found : List Coordinate}
    {P : Coordinate → Prop} [DecidablePred P] (hfound : ∀ d, d ∈ found ↔ P d) :
    plan.query c (.ok found) = .ok (plan.projects.filter fun q => P q.coordinate) := by
  rw [h.query_eq horder hc]
  simp only [hfound]

open scoped Classical in
/-- The prerequisites of a project in a plan are the projects of the plan that lead to it. -/
theorem Carries.prerequisitesOf_eq (h : Carries plan request reactor order)
    (horder : Canonical reactor order) (hc : c ∈ reactor) :
    plan.prerequisitesOf c true =
      .ok (plan.projects.filter fun q => PrecedesVia reactor.projects q.coordinate c) := by
  obtain ⟨found, hfound, hmem⟩ := Digraph.exists_ancestors (forall_mem_vertices hc)
  unfold Plan.prerequisitesOf
  rw [if_pos rfl, h.graph_eq, hfound]
  apply h.query_eq_of_mem_iff horder hc (P := fun d => PrecedesVia reactor.projects d c)
  intro d
  simp [hmem, Precedence.leads_graph]

open scoped Classical in
/-- The dependents of a project in a plan are the projects of the plan that it leads to. -/
theorem Carries.dependentsOf_eq (h : Carries plan request reactor order)
    (horder : Canonical reactor order) (hc : c ∈ reactor) :
    plan.dependentsOf c true =
      .ok (plan.projects.filter fun q => PrecedesVia reactor.projects c q.coordinate) := by
  obtain ⟨found, hfound, hmem⟩ := Digraph.exists_descendants (forall_mem_vertices hc)
  unfold Plan.dependentsOf
  rw [if_pos rfl, h.graph_eq, hfound]
  apply h.query_eq_of_mem_iff horder hc (P := fun d => PrecedesVia reactor.projects c d)
  intro d
  simp [hmem, Precedence.leads_graph]

/-! ## §2. What is wanted. -/

/-- The request without any selector wants every project. -/
theorem wanted_everything_iff : ({} : Request).Wanted reactor order c ↔ c ∈ reactor := by
  constructor
  · intro h
    exact h.mem
  · intro hc
    refine ⟨.inl ((Request.outstanding_of_none rfl).2 (.inl ⟨rfl, hc⟩)), ?_⟩
    intro hexcluded
    obtain ⟨s, hs, -⟩ := hexcluded
    exact absurd hs (by simp)

/-- A request for one project alone chooses this one. -/
theorem chosen_alone_iff (hc : c ∈ reactor) {how : AlsoMake} :
    (Request.alone c how).Chosen reactor d ↔ d = c := by
  have hstands := Reactor.standsFor_exact hc
  unfold Request.Chosen Request.alone
  simp only [List.cons_ne_nil, false_and, false_or, List.mem_singleton, exists_eq_left]
  constructor
  · intro hd
    exact hd.unique hstands
  · intro hd
    rw [hd]
    exact hstands

/-- A request for one project wants it and, as far as they are asked for, what leads to it and what
it leads to. -/
theorem wanted_alone_iff (hc : c ∈ reactor) {how : AlsoMake} :
    (Request.alone c how).Wanted reactor order d ↔
      ((how = .prerequisites ∨ how = .both) ∧ PrecedesVia reactor.projects d c) ∨ d = c ∨
        ((how = .dependents ∨ how = .both) ∧ PrecedesVia reactor.projects c d) := by
  have houtstanding : ∀ b, (Request.alone c how).Outstanding reactor order b ↔ b = c := by
    intro b
    rw [Request.outstanding_of_none rfl, chosen_alone_iff hc]
  have hexcludes : ¬ (Request.alone c how).Excludes reactor d := by
    intro hexcluded
    obtain ⟨s, hs, -⟩ := hexcluded
    exact absurd hs (by simp [Request.alone])
  have hmake : (Request.alone c how).alsoMake = how := rfl
  unfold Request.Wanted Request.Gathered
  simp only [houtstanding, hexcludes, hmake, exists_eq_left, not_false_iff, and_true]
  exact or_left_comm

/-! ## §3. The full plan and the plan for one project. -/

open scoped Classical in
/-- A plan is the wanted part of the full plan. -/
theorem Carries.projects_eq_filter (h : Carries plan request reactor order)
    (hfull : Carries full {} reactor order) (horder : Canonical reactor order) :
    plan.projects = full.projects.filter fun q => request.Wanted reactor order q.coordinate := by
  apply Reactor.eq_of_map_coordinate_eq h.mem
  · intro q hq
    exact hfull.mem q (List.mem_of_mem_filter hq)
  · have hall : full.coordinates = order := by
      rw [hfull.coordinates_eq, List.filter_eq_self]
      intro c hc
      exact decide_eq_true (wanted_everything_iff.2 (horder.mem_iff.1 hc))
    calc plan.projects.map Project.coordinate
        = order.filter (request.Wanted reactor order ·) := h.coordinates_eq
      _ = (full.projects.map Project.coordinate).filter (request.Wanted reactor order ·) := by
          rw [← hall]
          rfl
      _ = _ := List.filter_map

open scoped Classical in
/-- The plan for one project is the project, between those of the full plan that lead to it and those
that it leads to, as far as they are asked for. -/
theorem exists_plan_alone (hscope : Scoped projects root reactor)
    (horder : (Precedence.graph reactor.projects).buildOrder = .ok order)
    (hfull : Carries full {} reactor order) (hp : p ∈ reactor.projects) (how : AlsoMake) :
    ∃ plan, (build projects (.alone p.coordinate how) root).result = .ok (.made plan) ∧
      plan.projects =
        (full.projects.filter fun q => (how = .prerequisites ∨ how = .both) ∧
            PrecedesVia reactor.projects q.coordinate p.coordinate) ++
          p :: full.projects.filter fun q => (how = .dependents ∨ how = .both) ∧
            PrecedesVia reactor.projects p.coordinate q.coordinate := by
  have hcanonical := Canonical.of_buildOrder horder
  have hc : p.coordinate ∈ reactor := Reactor.mem_iff.2 ⟨p, hp, rfl⟩
  have hresolves : ∀ e ∈ (Request.alone p.coordinate how).entries, reactor.Resolves e.1 := by
    intro e he
    obtain rfl : e = (.exact p.coordinate, "selected projects") := by
      simpa [Request.entries, Request.alone] using he
    exact ⟨p.coordinate, Reactor.standsFor_exact hc⟩
  obtain ⟨plan, hresult, hbasis⟩ := exists_plan hscope horder hresolves
    ⟨p.coordinate, (wanted_alone_iff hc).2 (.inr (.inl rfl))⟩
  refine ⟨plan, hresult, ?_⟩
  have hpfull : p ∈ full.projects :=
    (hfull.mem_projects_iff hcanonical).2 ⟨hp, wanted_everything_iff.2 hc⟩
  rw [hbasis.carries.projects_eq_filter hfull hcanonical]
  apply filter_eq_append_cons (List.Nodup.of_map _ (hfull.nodup hcanonical)) hpfull
  · intro q hq
    -- of the projects of the reactor, only `p` has its coordinate
    have hqp : q.coordinate = p.coordinate ↔ q = p :=
      ⟨List.inj_on_of_nodup_map reactor.coordinates_nodup (hfull.mem q hq) hp,
        congrArg Project.coordinate⟩
    simp only [decide_eq_true_eq, wanted_alone_iff hc, hqp]
  · intro q hq hbefore
    exact (hfull.standsBefore_iff hcanonical hq hpfull).2
      (hcanonical.standsBefore (of_decide_eq_true hbefore).2)
  · intro q hq hafter
    exact (hfull.standsBefore_iff hcanonical hpfull hq).2
      (hcanonical.standsBefore (of_decide_eq_true hafter).2)

/-- **Over projects without a ring, the plan for one project and its prerequisites is what the full
plan answers for its prerequisites, and then the project; the plan for the project and its dependents
is the project, and then what the full plan answers for its dependents; and the plan with both is all
three.** -/
theorem build_alone_eq_queries (hscope : Scoped projects root reactor)
    (hacyclic : ¬ Circular reactor.projects) (hp : p ∈ reactor.projects) :
    ∃ full before after, (build projects {} root).result = .ok (.made full) ∧
      full.prerequisitesOf p.coordinate true = .ok before ∧
      full.dependentsOf p.coordinate true = .ok after ∧
      (∃ plan, (build projects (.alone p.coordinate .prerequisites) root).result =
          .ok (.made plan) ∧ plan.projects = before ++ [p]) ∧
      (∃ plan, (build projects (.alone p.coordinate .dependents) root).result =
          .ok (.made plan) ∧ plan.projects = p :: after) ∧
      ∃ plan, (build projects (.alone p.coordinate .both) root).result =
          .ok (.made plan) ∧ plan.projects = before ++ p :: after := by
  classical
  obtain ⟨order, horder⟩ := Digraph.exists_buildOrder_iff.2 (Precedence.acyclic_graph_iff.2 hacyclic)
  have hcanonical := Canonical.of_buildOrder horder
  have hc : p.coordinate ∈ reactor := Reactor.mem_iff.2 ⟨p, hp, rfl⟩
  have hresolves : ∀ e ∈ ({} : Request).entries, reactor.Resolves e.1 := by simp [Request.entries]
  obtain ⟨full, hresult, hbasis⟩ :=
    exists_plan hscope horder hresolves ⟨p.coordinate, wanted_everything_iff.2 hc⟩
  have hfull := hbasis.carries
  refine ⟨full, _, _, hresult, hfull.prerequisitesOf_eq hcanonical hc,
    hfull.dependentsOf_eq hcanonical hc, ?_, ?_, ?_⟩
  · obtain ⟨plan, hplan, hprojects⟩ := exists_plan_alone hscope horder hfull hp .prerequisites
    exact ⟨plan, hplan, by simpa using hprojects⟩
  · obtain ⟨plan, hplan, hprojects⟩ := exists_plan_alone hscope horder hfull hp .dependents
    exact ⟨plan, hplan, by simpa using hprojects⟩
  · obtain ⟨plan, hplan, hprojects⟩ := exists_plan_alone hscope horder hfull hp .both
    exact ⟨plan, hplan, by simpa using hprojects⟩

/-- A compiler, which needs the runtime. -/
def compiler : Project := .declare ⟨"org", "compiler"⟩ none [] [⟨"org", "runtime"⟩] none none

/-- The compiler, what it needs, what needs it, and a manual apart. -/
def tools : List Project :=
  [.declare ⟨"org", "app"⟩ none [] [⟨"org", "compiler"⟩] none none,
    .declare ⟨"org", "manual"⟩ none [] [] none none, compiler,
    .declare ⟨"org", "runtime"⟩ none [] [] none none]

/-- The reactor of the tools. -/
def toolchain : Reactor := ⟨tools, by decide⟩

/-- The law at the compiler, which stands between the runtime and the app. -/
theorem build_alone_eq_queries_compiler :
    Scoped tools none toolchain ∧ ¬ Circular toolchain.projects ∧
      compiler ∈ toolchain.projects ∧
      ∃ full before after, (build tools {} none).result = .ok (.made full) ∧
        full.prerequisitesOf compiler.coordinate true = .ok before ∧
        full.dependentsOf compiler.coordinate true = .ok after ∧
        (∃ plan, (build tools (.alone compiler.coordinate .prerequisites) none).result =
            .ok (.made plan) ∧ plan.projects = before ++ [compiler]) ∧
        (∃ plan, (build tools (.alone compiler.coordinate .dependents) none).result =
            .ok (.made plan) ∧ plan.projects = compiler :: after) ∧
        ∃ plan, (build tools (.alone compiler.coordinate .both) none).result =
            .ok (.made plan) ∧ plan.projects = before ++ compiler :: after := by
  have hscope : Scoped tools none toolchain := scoped_self toolchain
  have horder : (Precedence.graph toolchain.projects).buildOrder =
      .ok [⟨"org", "runtime"⟩, ⟨"org", "compiler"⟩, ⟨"org", "manual"⟩, ⟨"org", "app"⟩] := by cbv
  have hacyclic : ¬ Circular toolchain.projects := (Canonical.of_buildOrder horder).not_circular
  have hcompiler : compiler ∈ toolchain.projects := by decide
  exact ⟨hscope, hacyclic, hcompiler, build_alone_eq_queries hscope hacyclic hcompiler⟩

end Planning

end BuildPlan
