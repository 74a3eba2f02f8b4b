/-
  BuildPlan.Proofs.Planning.Verdict
  ─────────────────────────────────
  **WHICH COMPLAINT ENDS PLANNING.**

  Several complaints can apply to the same projects and request.  They are heard in
  this order, and the first that applies is the outcome:

      two projects share a coordinate
      the root is not among the projects
      the projects in scope need each other in a ring
      a selector stands for no project
      no project is wanted

  If none applies, there is a plan (`build_decides`).  Each complaint is stated over
  the projects and the request, apart from the stages that find out.
-/
import BuildPlan.Proofs.Planning.Course

namespace BuildPlan.Planning

open Reactor (Clash)

/-! ## §1. The complaints in order. -/

open scoped Classical in
/-- What planning comes to once the projects in scope are known. -/
def ScopeVerdict (reactor : Reactor) (request : Request) (o : Outcome) : Prop :=
  if Circular reactor.projects then
    ∃ cycle, (Precedence.graph reactor.projects).IsCycle cycle ∧ o = .stopped (.cyclic cycle)
  else
    ∃ order, (Precedence.graph reactor.projects).buildOrder = .ok order ∧
      match request.entries.find? (fun e => ¬ reactor.Resolves e.1) with
      | some (s, origin) =>
        o = .stopped (.unresolved s ((reactor.lookup s).map Project.coordinate) (some origin))
      | none =>
        if ∃ c, request.Wanted reactor order c then ∃ plan, o = .made plan
        else o = .stopped (.nothingLeft request.describe)

open scoped Classical in
/-- What planning comes to. -/
def Verdict (projects : List Project) (request : Request) (root : Option Coordinate)
    (o : Outcome) : Prop :=
  if Clash projects then
    ∃ p q, StandsBefore projects p q ∧ p.coordinate = q.coordinate ∧
      o = .stopped (.duplicate q.coordinate [p.path, q.path])
  else if ∃ c, root = some c ∧ c ∉ projects.map Project.coordinate then
    ∃ c, root = some c ∧ o = .stopped (.unresolved (.exact c) [] (some "root"))
  else ∃ reactor, reactor.projects = narrowed projects root ∧ ScopeVerdict reactor request o

/-! ## §2. Every course is what the complaints call for. -/

variable {projects : List Project} {request : Request} {root : Option Coordinate}
  {reactor : Reactor} {order : List Coordinate} {o : Outcome}

/-- Once the projects in scope are known, the verdict on them is the verdict. -/
theorem Scoped.verdict (hscope : Scoped projects root reactor)
    (h : ScopeVerdict reactor request o) : Verdict projects request root o := by
  have hroot : ¬ ∃ c, root = some c ∧ c ∉ projects.map Project.coordinate := by
    intro hunknown
    obtain ⟨c, hc, hmem⟩ := hunknown
    exact hmem (hscope.root_mem c hc)
  -- neither of the complaints about the whole list applies
  unfold Verdict
  rw [if_neg hscope.distinct, if_neg hroot]
  exact ⟨reactor, hscope.projects_eq, h⟩

/-- A ring in scope is heard before any complaint about the request. -/
theorem scopeVerdict_of_isCycle {cycle : List Coordinate}
    (hcycle : (Precedence.graph reactor.projects).IsCycle cycle) :
    ScopeVerdict reactor request (.stopped (.cyclic cycle)) := by
  -- a cycle of the graph is a ring of the projects
  have hcircular : Circular reactor.projects := by
    by_contra hnot
    exact hcycle.not_acyclic (Precedence.acyclic_graph_iff.2 hnot)
  unfold ScopeVerdict
  rw [if_pos hcircular]
  exact ⟨cycle, hcycle, rfl⟩

open scoped Classical in
/-- Without a ring, the first selector that stands for no project is heard. -/
theorem scopeVerdict_of_find? {s : Selector} {origin : String}
    (horder : (Precedence.graph reactor.projects).buildOrder = .ok order)
    (hfirst : request.entries.find? (fun e => ¬ reactor.Resolves e.1) = some (s, origin)) :
    ScopeVerdict reactor request
      (.stopped (.unresolved s ((reactor.lookup s).map Project.coordinate) (some origin))) := by
  unfold ScopeVerdict
  rw [if_neg (Canonical.of_buildOrder horder).not_circular, hfirst]
  exact ⟨order, horder, rfl⟩

open scoped Classical in
/-- With a build order and every selector resolved, it only matters whether a project is wanted. -/
theorem scopeVerdict_of_resolves
    (horder : (Precedence.graph reactor.projects).buildOrder = .ok order)
    (hresolves : ∀ e ∈ request.entries, reactor.Resolves e.1)
    (h : if ∃ c, request.Wanted reactor order c then ∃ plan, o = .made plan
      else o = .stopped (.nothingLeft request.describe)) :
    ScopeVerdict reactor request o := by
  have hnone : request.entries.find? (fun e => ¬ reactor.Resolves e.1) = none :=
    find?_not_eq_none_iff.2 hresolves
  unfold ScopeVerdict
  rw [if_neg (Canonical.of_buildOrder horder).not_circular, hnone]
  exact ⟨order, horder, h⟩

/-- Every course ends in the complaint that is due, or in a plan if none is. -/
theorem Course.verdict (h : Course projects request root o) :
    Verdict projects request root o := by
  cases h with
  | @clash p q hclash hbefore hpq =>
    unfold Verdict
    rw [if_pos hclash]
    exact ⟨p, q, hbefore, hpq, rfl⟩
  | @unknownRoot c hclash hroot hc =>
    unfold Verdict
    rw [if_neg hclash, if_pos ⟨c, hroot, hc⟩]
    exact ⟨c, hroot, rfl⟩
  | circular hscope hcycle => exact hscope.verdict (scopeVerdict_of_isCycle hcycle)
  | unresolved hscope horder hfirst =>
    exact hscope.verdict (scopeVerdict_of_find? horder hfirst)
  | nothing hscope horder hresolves hnone =>
    refine hscope.verdict (scopeVerdict_of_resolves horder hresolves ?_)
    rw [if_neg hnone]
  | planned hscope horder hresolves hsome =>
    refine hscope.verdict (scopeVerdict_of_resolves horder hresolves ?_)
    rw [if_pos hsome]
    exact ⟨_, rfl⟩

/-- An outcome has a plan or a fault, and never both. -/
theorem Course.isSome_plan?_eq (h : Course projects request root o) :
    o.plan?.isSome = o.fault?.isNone := by
  cases h <;> rfl

/-! ## §3. The law of the outcome. -/

/-- **Planning always ends with a plan or a fault and not both, no look-up fails on the way, and
the first complaint that applies decides which.** -/
theorem build_decides (projects : List Project) (request : Request) (root : Option Coordinate) :
    ∃ o, (build projects request root).result = .ok o ∧ o.plan?.isSome = o.fault?.isNone ∧
      Verdict projects request root o := by
  obtain ⟨o, hresult, hcourse⟩ := exists_course projects request root
  exact ⟨o, hresult, hcourse.isSome_plan?_eq, hcourse.verdict⟩

end BuildPlan.Planning
