/-
  BuildPlan.Proofs.Planning.Companions
  ────────────────────────────────────
  **WHAT IS MADE ALONG WITH THE PROJECTS ASKED FOR.**

  A request may ask for prerequisites or for dependents as well.  What is gathered
  then is closed under one step of precedence, backwards (`Gathered.prerequisite`) or
  forwards (`Gathered.dependent`).  Only an exclusion takes anything out of it again,
  so a plan without exclusions is closed too (`build_keeps_companions`):

      prerequisites   what a project of the plan needs is in the plan, before it
      dependents      what needs a project of the plan is in the plan, after it

  A resume point decides whose companions are made, and leaves none of them out.
-/
import BuildPlan.Proofs.Planning.Contents

namespace BuildPlan

/-! ## §1. What is gathered is closed. -/

namespace Request

variable {request : Request} {reactor : Reactor} {order : List Coordinate} {u v : Coordinate}

/-- What is gathered with its prerequisites brings those of its prerequisites. -/
theorem Gathered.prerequisite (h : request.Gathered reactor order v)
    (hmake : request.alsoMake = .prerequisites) (huv : Precedes reactor.projects u v) :
    request.Gathered reactor order u := by
  rcases h with hv | ⟨-, b, hb, hvb⟩ | ⟨hother, -⟩
  · exact .inr (.inl ⟨.inl hmake, v, hv, .single huv⟩)
  · exact .inr (.inl ⟨.inl hmake, b, hb, .head huv hvb⟩)
  · rw [hmake] at hother
    exact absurd hother (by simp)

theorem Gathered.dependent (h : request.Gathered reactor order u)
    (hmake : request.alsoMake = .dependents) (huv : Precedes reactor.projects u v) :
    request.Gathered reactor order v := by
  rcases h with hu | ⟨hother, -⟩ | ⟨-, b, hb, hbu⟩
  · exact .inr (.inr ⟨.inl hmake, u, hu, .single huv⟩)
  · rw [hmake] at hother
    exact absurd hother (by simp)
  · exact .inr (.inr ⟨.inl hmake, b, hb, .tail hbu huv⟩)

theorem not_excludes_of_eq_nil (h : request.excluded = []) : ¬ request.Excludes reactor u := by
  unfold Excludes
  rw [h]
  simp

end Request

/-! ## §2. So is a plan without exclusions. -/

namespace Planning

variable {projects : List Project} {request : Request} {root : Option Coordinate}
  {reactor : Reactor} {order : List Coordinate} {o : Outcome} {plan : Plan}

/-- A project that is gathered is in the plan if nothing is excluded. -/
theorem Carries.mem_of_gathered (h : Carries plan request reactor order)
    (horder : Canonical reactor order) (hexcluded : request.excluded = []) {p : Project}
    (hp : p ∈ reactor.projects) (hgathered : request.Gathered reactor order p.coordinate) :
    p ∈ plan.projects :=
  (h.mem_projects_iff horder).2 ⟨hp, hgathered, Request.not_excludes_of_eq_nil hexcluded⟩

/-- **A plan that is made without exclusions and with prerequisites has, before each of its
projects, all that the project needs; one that is made with dependents has, behind each of its
projects, all that needs the project.** -/
theorem build_keeps_companions (h : (build projects request root).result = .ok o)
    (hplan : o.plan? = some plan) (hexcluded : request.excluded = []) :
    ∃ reactor, Scoped projects root reactor ∧
      (request.alsoMake = .prerequisites →
        ∀ q ∈ plan.projects, ∀ p ∈ reactor.projects, q.Needs p.coordinate →
          p ∈ plan.projects ∧ StandsBefore plan.projects p q) ∧
      (request.alsoMake = .dependents →
        ∀ p ∈ plan.projects, ∀ q ∈ reactor.projects, q.Needs p.coordinate →
          q ∈ plan.projects ∧ StandsBefore plan.projects p q) := by
  obtain ⟨reactor, order, hbasis⟩ := exists_basis h hplan
  have horder := hbasis.canonical
  have hcarries := hbasis.carries
  have hgathered : ∀ r ∈ plan.projects, request.Gathered reactor order r.coordinate := by
    intro r hr
    exact ((hcarries.mem_projects_iff horder).1 hr).2.1
  refine ⟨reactor, hbasis.scope, ?_, ?_⟩
  · intro hmake q hq p hp hneeds
    have hpq := hneeds.precedes hp (hcarries.mem q hq)
    have hmem := hcarries.mem_of_gathered horder hexcluded hp
      ((hgathered q hq).prerequisite hmake hpq)
    exact ⟨hmem, hcarries.standsBefore horder hmem hq hneeds⟩
  · intro hmake p hp q hq hneeds
    have hpq := hneeds.precedes (hcarries.mem p hp) hq
    have hmem := hcarries.mem_of_gathered horder hexcluded hq
      ((hgathered p hp).dependent hmake hpq)
    exact ⟨hmem, hcarries.standsBefore horder hp hmem hneeds⟩

/-- The second child and what it needs, resumed from the first child. -/
def secondResumed : Request :=
  { selected := [.text "second"], resumeFrom := some (.text ":first"), alsoMake := .prerequisites }

/-- The law at a request for the second child that resumes from the first: the parent is built as
well. -/
theorem build_keeps_companions_family :
    ∃ o plan, (build family secondResumed none).result = .ok o ∧ o.plan? = some plan ∧
      secondResumed.excluded = [] ∧
        plan.coordinates = [⟨"org", "parent"⟩, ⟨"org", "first"⟩, ⟨"org", "second"⟩] ∧
          ∃ reactor, Scoped family none reactor ∧
            (secondResumed.alsoMake = .prerequisites →
              ∀ q ∈ plan.projects, ∀ p ∈ reactor.projects, q.Needs p.coordinate →
                p ∈ plan.projects ∧ StandsBefore plan.projects p q) ∧
            (secondResumed.alsoMake = .dependents →
              ∀ p ∈ plan.projects, ∀ q ∈ reactor.projects, q.Needs p.coordinate →
                q ∈ plan.projects ∧ StandsBefore plan.projects p q) := by
  have hrun : ((build family secondResumed none).result.toOption.bind Outcome.plan?).map
      Plan.coordinates = some [⟨"org", "parent"⟩, ⟨"org", "first"⟩, ⟨"org", "second"⟩] := by cbv
  obtain ⟨o, plan, hresult, hplan, hcoordinates⟩ := exists_plan_of_map hrun
  exact ⟨o, plan, hresult, hplan, rfl, hcoordinates, build_keeps_companions hresult hplan rfl⟩

end Planning

end BuildPlan
