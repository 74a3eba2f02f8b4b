/-
  BuildPlan.Proofs.Planning.Resumption
  ────────────────────────────────────
  **WHAT A RESUME POINT KEEPS AND WHAT IT LEAVES OUT.**

  The cut is made before anything is gathered, so a project before the resume point
  is in a plan only as a prerequisite of what is left (`build_resumes_at_point`):

      nothing, dependents     the plan starts at the resume point
      prerequisites, both     before it stands only what leads to it or past it

  A plan that breaks off can be taken up at any of its projects.  The new plan has
  the rest of the old one, except for what the old one held only for the sake of
  projects before the break: dependents of chosen projects that are themselves cut
  off (`LeftBehind`).  Nothing else gets lost (`resuming_keeps_all_but`), and that
  much does (`resuming_loses_dependent`).
-/
import BuildPlan.Proofs.Planning.Contents

namespace BuildPlan

namespace Request

/-! ## §1. Where the gathered projects stand. -/

variable {request : Request} {reactor : Reactor} {order : List Coordinate} {c point : Coordinate}

/-- A project that is gathered is the resume point, stands behind it, or is a prerequisite of the
resume point or of a chosen project behind it. -/
theorem Gathered.eq_or_after_or_leads (h : request.Gathered reactor order c)
    (horder : Planning.Canonical reactor order) {s : Selector}
    (hfrom : request.resumeFrom = some s) (hpoint : reactor.StandsFor s point) :
    c = point ∨ StandsBefore order point c ∨
      (request.alsoMake = .prerequisites ∨ request.alsoMake = .both) ∧
        ∃ b, PrecedesVia reactor.projects c b ∧
          (b = point ∨ request.Chosen reactor b ∧ StandsBefore order point b) := by
  have hstands : ∀ b, request.Outstanding reactor order b →
      b = point ∨ request.Chosen reactor b ∧ StandsBefore order point b := by
    intro b hb
    exact (outstanding_of_some hfrom hpoint).1 hb
  rcases h with hc | ⟨hmake, b, hb, hcb⟩ | ⟨-, b, hb, hbc⟩
  · rcases hstands c hc with rfl | ⟨-, hafter⟩
    · exact .inl rfl
    · exact .inr (.inl hafter)
  · exact .inr (.inr ⟨hmake, b, hcb, hstands b hb⟩)
  · -- a dependent stands behind what it depends on, and that is not before the resume point
    have hbefore := horder.standsBefore hbc
    rcases hstands b hb with rfl | ⟨-, hafter⟩
    · exact .inr (.inl hbefore)
    · exact .inr (.inl (hafter.trans horder.nodup hbefore))

/-- Without prerequisites, nothing is gathered from before the resume point. -/
theorem Gathered.not_standsBefore (h : request.Gathered reactor order c)
    (horder : Planning.Canonical reactor order) {s : Selector}
    (hfrom : request.resumeFrom = some s) (hpoint : reactor.StandsFor s point)
    (hmake : request.alsoMake = .nothing ∨ request.alsoMake = .dependents) :
    ¬ StandsBefore order c point := by
  rcases h.eq_or_after_or_leads horder hfrom hpoint with rfl | hafter | ⟨hother, -⟩
  · exact not_standsBefore_self horder.nodup c
  · exact hafter.asymm horder.nodup
  · rcases hmake with hmake | hmake <;> rw [hmake] at hother <;> exact absurd hother (by simp)

end Request

namespace Planning

variable {projects : List Project} {request : Request} {root : Option Coordinate}
  {reactor : Reactor} {order : List Coordinate} {o : Outcome} {plan : Plan}
  {point : Coordinate}

/-! ## §2. Plans with a resume point. -/

/-- Without prerequisites, a plan starts at the resume point unless this is excluded. -/
theorem Carries.head?_eq_point (h : Carries plan request reactor order)
    (horder : Canonical reactor order) {s : Selector} (hfrom : request.resumeFrom = some s)
    (hpoint : reactor.StandsFor s point)
    (hmake : request.alsoMake = .nothing ∨ request.alsoMake = .dependents)
    (hexcluded : ¬ request.Excludes reactor point) : plan.coordinates.head? = some point := by
  classical
  have hwanted : request.Wanted reactor order point :=
    ⟨.inl ((Request.outstanding_of_some hfrom hpoint).2 (.inl rfl)), hexcluded⟩
  rw [h.coordinates_eq]
  apply head?_filter_eq_some (horder.mem_iff.2 hpoint.mem) (decide_eq_true hwanted)
  intro b hb
  exact (of_decide_eq_true hb).1.not_standsBefore horder hfrom hpoint hmake

/-- **Without prerequisites, no project of a plan stands before the resume point, and the plan
starts there unless the point is excluded.  With prerequisites, every project of the plan that stands
before the resume point leads to it or to a chosen project behind it.** -/
theorem build_resumes_at_point (h : (build projects request root).result = .ok o)
    (hplan : o.plan? = some plan) {s : Selector} (hfrom : request.resumeFrom = some s) :
    ∃ reactor order point, Scoped projects root reactor ∧
      (Precedence.graph reactor.projects).buildOrder = .ok order ∧ reactor.StandsFor s point ∧
        (request.alsoMake = .nothing ∨ request.alsoMake = .dependents →
          (∀ p ∈ plan.projects, ¬ StandsBefore order p.coordinate point) ∧
            (¬ request.Excludes reactor point → plan.coordinates.head? = some point)) ∧
        (request.alsoMake = .prerequisites ∨ request.alsoMake = .both →
          ∀ p ∈ plan.projects, StandsBefore order p.coordinate point →
            ∃ b, PrecedesVia reactor.projects p.coordinate b ∧
              (b = point ∨ request.Chosen reactor b ∧ StandsBefore order point b)) := by
  obtain ⟨reactor, order, hbasis⟩ := exists_basis h hplan
  have horder := hbasis.canonical
  have hcarries := hbasis.carries
  -- the plan was made, so the selector of the resume point stands for a project
  obtain ⟨point, hpoint⟩ : reactor.Resolves s := by
    refine hbasis.resolves (s, "resume from") ?_
    unfold Request.entries
    rw [hfrom]
    simp
  have hgathered : ∀ p ∈ plan.projects, request.Gathered reactor order p.coordinate := by
    intro p hp
    exact ((hcarries.mem_projects_iff horder).1 hp).2.1
  refine ⟨reactor, order, point, hbasis.scope, hbasis.buildOrder_eq, hpoint, ?_, ?_⟩
  · intro hmake
    refine ⟨?_, hcarries.head?_eq_point horder hfrom hpoint hmake⟩
    intro p hp
    exact (hgathered p hp).not_standsBefore horder hfrom hpoint hmake
  · intro _ p hp hbefore
    rcases (hgathered p hp).eq_or_after_or_leads horder hfrom hpoint with heq | hafter | ⟨-, hleads⟩
    · rw [heq] at hbefore
      exact absurd hbefore (not_standsBefore_self horder.nodup point)
    · exact absurd hbefore (hafter.asymm horder.nodup)
    · exact hleads

/-- Everything from the first child on, and what that needs. -/
def fromFirst : Request := { resumeFrom := some (.text ":first"), alsoMake := .prerequisites }

/-- The law at the first child: its parent stands before it, and is needed for it. -/
theorem build_resumes_at_point_family :
    ∃ o plan, (build family fromFirst none).result = .ok o ∧ o.plan? = some plan ∧
      fromFirst.resumeFrom = some (.text ":first") ∧
        plan.coordinates =
          [⟨"org", "parent"⟩, ⟨"org", "first"⟩, ⟨"org", "second"⟩, ⟨"org", "apart"⟩] ∧
          ∃ reactor order point, Scoped family none reactor ∧
            (Precedence.graph reactor.projects).buildOrder = .ok order ∧
              reactor.StandsFor (.text ":first") point ∧
              (fromFirst.alsoMake = .nothing ∨ fromFirst.alsoMake = .dependents →
                (∀ p ∈ plan.projects, ¬ StandsBefore order p.coordinate point) ∧
                  (¬ fromFirst.Excludes reactor point → plan.coordinates.head? = some point)) ∧
              (fromFirst.alsoMake = .prerequisites ∨ fromFirst.alsoMake = .both →
                ∀ p ∈ plan.projects, StandsBefore order p.coordinate point →
                  ∃ b, PrecedesVia reactor.projects p.coordinate b ∧
                    (b = point ∨ fromFirst.Chosen reactor b ∧ StandsBefore order point b)) := by
  have hrun : ((build family fromFirst none).result.toOption.bind Outcome.plan?).map
      Plan.coordinates = some [⟨"org", "parent"⟩, ⟨"org", "first"⟩, ⟨"org", "second"⟩,
        ⟨"org", "apart"⟩] := by cbv
  obtain ⟨o, plan, hresult, hplan, hcoordinates⟩ := exists_plan_of_map hrun
  exact ⟨o, plan, hresult, hplan, rfl, hcoordinates, build_resumes_at_point hresult hplan rfl⟩

end Planning

/-! ## §3. A plan taken up again. -/

namespace Request

variable {request : Request} {reactor : Reactor} {order : List Coordinate} {c point : Coordinate}

/-- The request, resumed at the project with the given coordinate. -/
def resumedAt (request : Request) (point : Coordinate) : Request :=
  { request with resumeFrom := some (.exact point) }

/-- The project is asked for only as a dependent, and only of chosen projects before the point. -/
structure LeftBehind (request : Request) (reactor : Reactor) (order : List Coordinate)
    (point c : Coordinate) : Prop where
  /-- Dependents are asked for. -/
  asked : request.alsoMake = .dependents ∨ request.alsoMake = .both
  /-- The project is not chosen itself. -/
  not_chosen : ¬ request.Chosen reactor c
  /-- No chosen project needs it, as far as prerequisites are asked for. -/
  not_needed : request.alsoMake = .both →
    ∀ b, request.Chosen reactor b → ¬ PrecedesVia reactor.projects c b
  /-- It does not depend on the project at the point. -/
  not_dependent : ¬ PrecedesVia reactor.projects point c
  /-- The chosen projects that it depends on stand before the point. -/
  before : ∀ b, request.Chosen reactor b → PrecedesVia reactor.projects b c →
    StandsBefore order b point

/-- Resumed at a project, the request is left with that project and what is chosen behind it. -/
theorem outstanding_resumedAt (hpoint : point ∈ reactor) :
    (request.resumedAt point).Outstanding reactor order c ↔
      c = point ∨ request.Chosen reactor c ∧ StandsBefore order point c :=
  outstanding_of_some rfl (Reactor.standsFor_exact hpoint)

/-- What is left behind is not gathered again. -/
theorem LeftBehind.not_gathered (h : request.LeftBehind reactor order point c)
    (horder : Planning.Canonical reactor order) (hpoint : point ∈ reactor)
    (hafter : StandsBefore order point c) :
    ¬ (request.resumedAt point).Gathered reactor order c := by
  intro hgathered
  rcases hgathered with hc | ⟨hmake, b, hb, hcb⟩ | ⟨-, b, hb, hbc⟩
  · rcases (outstanding_resumedAt hpoint).1 hc with rfl | ⟨hchosen, -⟩
    · exact not_standsBefore_self horder.nodup c hafter
    · exact h.not_chosen hchosen
  · -- it would be a prerequisite of the point, which stands before it, or of a chosen project
    rcases (outstanding_resumedAt hpoint).1 hb with rfl | ⟨hchosen, -⟩
    · exact hafter.asymm horder.nodup (horder.standsBefore hcb)
    · have hboth : request.alsoMake = .both := by
        rcases h.asked with hasked | hasked
        · rcases hmake with hmake | hmake
          · exact absurd (hasked.symm.trans hmake) (by simp)
          · exact hmake
        · exact hasked
      exact h.not_needed hboth b hchosen hcb
  · -- it would be a dependent of the point or of a chosen project behind it
    rcases (outstanding_resumedAt hpoint).1 hb with rfl | ⟨hchosen, hpb⟩
    · exact h.not_dependent hbc
    · exact hpb.asymm horder.nodup (h.before b hchosen hbc)

/-- Of what is gathered behind the point, all that is not left behind is gathered again. -/
theorem Gathered.resumedAt (h : request.Gathered reactor order c)
    (hfrom : request.resumeFrom = none) (horder : Planning.Canonical reactor order)
    (hpoint : point ∈ reactor) (hafter : StandsBefore order point c)
    (hleft : ¬ request.LeftBehind reactor order point c) :
    (request.resumedAt point).Gathered reactor order c := by
  have hkept : ∀ b, request.Chosen reactor b → StandsBefore order point b →
      (request.resumedAt point).Outstanding reactor order b := by
    intro b hb hpb
    exact (outstanding_resumedAt hpoint).2 (.inr ⟨hb, hpb⟩)
  -- a chosen project that needs `c` stands behind `c`, so it is still outstanding
  have hneeded : ∀ b, request.Chosen reactor b → PrecedesVia reactor.projects c b →
      (request.resumedAt point).Outstanding reactor order b := by
    intro b hb hcb
    exact hkept b hb (hafter.trans horder.nodup (horder.standsBefore hcb))
  by_contra hnot
  have hchosen : ¬ request.Chosen reactor c := by
    intro hc
    exact hnot (.inl (hkept c hc hafter))
  rcases h with hc | ⟨hmake, b, hb, hcb⟩ | ⟨hmake, -⟩
  · exact hchosen ((outstanding_of_none hfrom).1 hc)
  · exact hnot (.inr (.inl ⟨hmake, b, hneeded b ((outstanding_of_none hfrom).1 hb) hcb, hcb⟩))
  · refine hleft ⟨hmake, hchosen, ?_, ?_, ?_⟩
    · intro hboth b hb hcb
      exact hnot (.inr (.inl ⟨.inr hboth, b, hneeded b hb hcb, hcb⟩))
    · intro hpc
      exact hnot (.inr (.inr ⟨hmake, point, (outstanding_resumedAt hpoint).2 (.inl rfl), hpc⟩))
    · intro b hb hbc
      -- otherwise `b` would be outstanding, and `c` a dependent of it
      have hmem : ∀ d ∈ reactor, d ∈ order := fun d hd => horder.mem_iff.2 hd
      rcases eq_or_standsBefore (hmem b hb.mem) (hmem point hpoint) with rfl | hbefore | hpb
      · exact absurd (.inr (.inr ⟨hmake, b, (outstanding_resumedAt hpoint).2 (.inl rfl), hbc⟩)) hnot
      · exact hbefore
      · exact absurd (.inr (.inr ⟨hmake, b, hkept b hb hpb, hbc⟩)) hnot

/-- Behind the point, resuming loses only what is left behind. -/
theorem gathered_resumedAt_iff (h : request.Gathered reactor order c)
    (hfrom : request.resumeFrom = none) (horder : Planning.Canonical reactor order)
    (hpoint : point ∈ reactor) (hafter : StandsBefore order point c) :
    (request.resumedAt point).Gathered reactor order c ↔
      ¬ request.LeftBehind reactor order point c := by
  constructor
  · intro hgathered hleft
    exact hleft.not_gathered horder hpoint hafter hgathered
  · exact h.resumedAt hfrom horder hpoint hafter

/-- The selectors of a resumed request stand for projects if those of the request do. -/
theorem resolves_resumedAt (hresolves : ∀ e ∈ request.entries, reactor.Resolves e.1)
    (hpoint : point ∈ reactor) : ∀ e ∈ (request.resumedAt point).entries, reactor.Resolves e.1 := by
  simp only [entries, List.forall_mem_append] at hresolves ⊢
  obtain ⟨hselected, hexcluded, -⟩ := hresolves
  refine ⟨hselected, hexcluded, ?_⟩
  intro e he
  obtain rfl : e = (.exact point, "resume from") := by simpa [resumedAt] using he
  exact ⟨point, Reactor.standsFor_exact hpoint⟩

end Request

namespace Planning

variable {projects : List Project} {request : Request} {root : Option Coordinate}
  {o : Outcome} {plan : Plan} {p : Project}

/-- **A plan can be taken up at any of its projects: the request resumed there has a plan with that
project, and of the projects behind it, exactly those are missing that are left behind.** -/
theorem resuming_keeps_all_but (h : (build projects request root).result = .ok o)
    (hplan : o.plan? = some plan) (hfrom : request.resumeFrom = none) (hp : p ∈ plan.projects) :
    ∃ reactor order o' plan', Scoped projects root reactor ∧
      (Precedence.graph reactor.projects).buildOrder = .ok order ∧
        (build projects (request.resumedAt p.coordinate) root).result = .ok o' ∧
          o'.plan? = some plan' ∧ p ∈ plan'.projects ∧
            ∀ q, StandsBefore plan.projects p q →
              (q ∈ plan'.projects ↔ ¬ request.LeftBehind reactor order p.coordinate q.coordinate) := by
  obtain ⟨reactor, order, hbasis⟩ := exists_basis h hplan
  have horder := hbasis.canonical
  have hcarries := hbasis.carries
  obtain ⟨hpmem, hpwanted⟩ := (hcarries.mem_projects_iff horder).1 hp
  have hpoint : p.coordinate ∈ reactor := Reactor.mem_iff.2 ⟨p, hpmem, rfl⟩
  -- the project resumed at is outstanding, and it was not excluded before
  have hwanted : (request.resumedAt p.coordinate).Wanted reactor order p.coordinate :=
    ⟨.inl ((Request.outstanding_resumedAt hpoint).2 (.inl rfl)), hpwanted.2⟩
  obtain ⟨plan', hresult', hbasis'⟩ := exists_plan hbasis.scope hbasis.buildOrder_eq
    (Request.resolves_resumedAt hbasis.resolves hpoint) ⟨_, hwanted⟩
  refine ⟨reactor, order, .made plan', plan', hbasis.scope, hbasis.buildOrder_eq, hresult', rfl,
    (hbasis'.carries.mem_projects_iff horder).2 ⟨hpmem, hwanted⟩, ?_⟩
  intro q hpq
  have hq := hpq.mem_right
  have hafter := (hcarries.standsBefore_iff horder hp hq).1 hpq
  obtain ⟨hqmem, hqwanted⟩ := (hcarries.mem_projects_iff horder).1 hq
  rw [hbasis'.carries.mem_projects_iff horder,
    ← Request.gathered_resumedAt_iff hqwanted.1 hfrom horder hpoint hafter]
  constructor
  · intro hq'
    exact hq'.2.1
  · intro hgathered
    exact ⟨hqmem, hgathered, hqwanted.2⟩

/-- A project that two others build on. -/
def library : Project :=
  { coordinate := ⟨"org", "library"⟩, dependencies_nodup := List.nodup_nil }

/-- The one of the two that is found first. -/
def client : Project :=
  { coordinate := ⟨"org", "client"⟩, dependencies := [⟨"org", "library"⟩] }

/-- The other of the two. -/
def server : Project :=
  { coordinate := ⟨"org", "server"⟩, dependencies := [⟨"org", "library"⟩] }

/-- The library and all that builds on it. -/
def libraryOnward : Request := { selected := [.text ":library"], alsoMake := .dependents }

theorem exists_plan_libraryOnward :
    ∃ o plan, (build [library, client, server] libraryOnward none).result = .ok o ∧
      o.plan? = some plan ∧ plan.projects = [library, server, client] := by
  have hrun : ((build [library, client, server] libraryOnward none).result.toOption.bind
      Outcome.plan?).map Plan.projects = some [library, server, client] := by cbv
  exact exists_plan_of_map hrun

/-- The law at the server, on which nothing of the plan builds. -/
theorem resuming_keeps_all_but_client :
    ∃ o plan, (build [library, client, server] libraryOnward none).result = .ok o ∧
      o.plan? = some plan ∧ libraryOnward.resumeFrom = none ∧ server ∈ plan.projects ∧
        ∃ reactor order o' plan', Scoped [library, client, server] none reactor ∧
          (Precedence.graph reactor.projects).buildOrder = .ok order ∧
            (build [library, client, server] (libraryOnward.resumedAt server.coordinate)
              none).result = .ok o' ∧
              o'.plan? = some plan' ∧ server ∈ plan'.projects ∧
                ∀ q, StandsBefore plan.projects server q →
                  (q ∈ plan'.projects ↔
                    ¬ libraryOnward.LeftBehind reactor order server.coordinate q.coordinate) := by
  obtain ⟨o, plan, hresult, hplan, hprojects⟩ := exists_plan_libraryOnward
  have hserver : server ∈ plan.projects := by
    rw [hprojects]
    simp
  exact ⟨o, plan, hresult, hplan, rfl, hserver,
    resuming_keeps_all_but hresult hplan rfl hserver⟩

/-- Not everything behind the project resumed at is kept: the client is planned for the sake of the
library alone, and that stands before the server. -/
theorem resuming_loses_dependent :
    ∃ o plan o' plan',
      (build [library, client, server] libraryOnward none).result = .ok o ∧
        o.plan? = some plan ∧ libraryOnward.resumeFrom = none ∧
          plan.projects = [library, server, client] ∧ server ∈ plan.projects ∧
            (build [library, client, server] (libraryOnward.resumedAt server.coordinate)
              none).result = .ok o' ∧
              o'.plan? = some plan' ∧ plan'.projects = [server] ∧
                ¬ ∀ q, q = server ∨ StandsBefore plan.projects server q → q ∈ plan'.projects := by
  have hrun : ((build [library, client, server] (libraryOnward.resumedAt server.coordinate)
      none).result.toOption.bind Outcome.plan?).map Plan.projects = some [server] := by cbv
  obtain ⟨o, plan, hresult, hplan, hprojects⟩ := exists_plan_libraryOnward
  obtain ⟨o', plan', hresult', hplan', hprojects'⟩ := exists_plan_of_map hrun
  refine ⟨o, plan, o', plan', hresult, hplan, rfl, hprojects, ?_, hresult', hplan', hprojects', ?_⟩
  · rw [hprojects]
    simp
  · rw [hprojects, hprojects']
    intro hall
    have hclient := hall client (.inr ((standsBefore_cons (by simp)).cons library))
    exact absurd hclient (by decide)

end Planning

end BuildPlan
