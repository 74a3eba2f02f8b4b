/-
  BuildPlan.Proofs.Planning.Discovery
  ───────────────────────────────────
  **PLANNING IN ANOTHER ORDER OF DISCOVERY.**

  The order of discovery breaks ties in the build order and decides which ring or
  which repeated coordinate is reported.  It has no say in what is planned: every
  question that planning asks on the way is about which projects there are, and not
  about how they stand.

      lookup_perm                  what a selector might stand for
      precedesVia_of_perm          what must be built before what
      narrowed_perm                what the root and its modules lead to
      Request.wanted_iff_of_perm   what a request without a resume point asks for

  So the same projects in another order have a plan of the same projects, or end in a
  fault of the same kind (`build_ignores_discovery`).  A resume point is another
  matter: it cuts the build order itself.
-/
import BuildPlan.Proofs.Planning.Contents
import BuildPlan.Proofs.Planning.Verdict
import BuildPlan.Proofs.Reactor.Narrowing

namespace BuildPlan

/-! ## §1. Outcomes that differ in order only. -/

/-- Two faults of one kind.  A selector that stands for no project is the same one in both, was
given for the same option, and might stand for the same projects. -/
inductive Fault.Alike : Fault → Fault → Prop
  | cyclic (cycle cycle' : List Coordinate) : Alike (.cyclic cycle) (.cyclic cycle')
  | unresolved (s : Selector) {candidates candidates' : List Coordinate}
      (h : candidates.Perm candidates') (origin : Option String) :
      Alike (.unresolved s candidates origin) (.unresolved s candidates' origin)
  | nothingLeft (options : String) : Alike (.nothingLeft options) (.nothingLeft options)
  | duplicate (c c' : Coordinate) (paths paths' : List (Option String)) :
      Alike (.duplicate c paths) (.duplicate c' paths')

/-- Two plans of the same projects, or two faults of one kind. -/
inductive Outcome.Alike : Outcome → Outcome → Prop
  | made {plan plan' : Plan} (h : plan.projects.Perm plan'.projects) :
      Alike (.made plan) (.made plan')
  | stopped {fault fault' : Fault} (h : fault.Alike fault') :
      Alike (.stopped fault) (.stopped fault')

/-! ## §2. The projects in another order. -/

section Projects

variable {projects projects' : List Project}

/-- What precedes what is asked of the projects, wherever they stand. -/
theorem precedes_of_perm (h : projects.Perm projects') : Precedes projects = Precedes projects' := by
  funext u v
  unfold Precedes
  simp only [h.mem_iff]

theorem precedesVia_of_perm (h : projects.Perm projects') :
    PrecedesVia projects = PrecedesVia projects' := by
  unfold PrecedesVia
  rw [precedes_of_perm h]

theorem circular_iff_of_perm (h : projects.Perm projects') :
    Circular projects ↔ Circular projects' := by
  unfold Circular
  rw [precedesVia_of_perm h]

theorem Reactor.clash_iff_of_perm (h : projects.Perm projects') :
    Reactor.Clash projects ↔ Reactor.Clash projects' :=
  not_congr (h.map Project.coordinate).nodup_iff

/-- A root and its modules lead to the very same list; without a root, the lists are as given. -/
theorem Planning.narrowed_perm (h : projects.Perm projects')
    (hdistinct : ¬ Reactor.Clash projects) (root : Option Coordinate) :
    (Planning.narrowed projects root).Perm (Planning.narrowed projects' root) := by
  cases root with
  | none => exact h
  | some c =>
    show (Reactor.preorder projects [c]).Perm (Reactor.preorder projects' [c])
    rw [Reactor.preorder_of_perm h (Classical.not_not.1 hdistinct)]

end Projects

namespace Reactor

variable {r r' : Reactor} {s : Selector} {c : Coordinate}

theorem mem_iff_of_perm (h : r.projects.Perm r'.projects) : c ∈ r ↔ c ∈ r' := by
  rw [mem_iff, mem_iff]
  simp only [h.mem_iff]

theorem get?_of_perm (h : r.projects.Perm r'.projects) : r.get? = r'.get? := by
  funext c
  exact find?_key_of_perm h r.coordinates_nodup c

theorem named_perm (h : r.projects.Perm r'.projects) (name : String) :
    (r.named name).Perm (r'.named name) :=
  h.filter _

theorem lookupBare_perm (h : r.projects.Perm r'.projects) (text : String) :
    (r.lookupBare text).Perm (r'.lookupBare text) := by
  have hnamed := named_perm h text
  unfold lookupBare
  -- a name that no project has is no name in the other order either
  by_cases hnil : r.named text = []
  · rw [if_pos hnil, if_pos (hnil ▸ hnamed).nil_eq.symm]
    exact h.filter _
  · have hnil' : r'.named text ≠ [] := by
      intro hnil'
      rw [hnil'] at hnamed
      exact hnil hnamed.eq_nil
    rw [if_neg hnil, if_neg hnil']
    exact hnamed

/-- A selector might stand for the same projects, in another order. -/
theorem lookup_perm (h : r.projects.Perm r'.projects) (s : Selector) :
    (r.lookup s).Perm (r'.lookup s) := by
  unfold lookup
  rw [get?_of_perm h]
  split
  · rfl
  · split
    · exact lookupBare_perm h _
    · exact named_perm h _
    · rfl

/-- A selector stands for the same project, since it stands for one only. -/
theorem standsFor_iff_of_perm (h : r.projects.Perm r'.projects) :
    r.StandsFor s c ↔ r'.StandsFor s c := by
  have hperm := lookup_perm h s
  unfold StandsFor
  -- a list that is a permutation of one with a single member is that one
  constructor
  · intro hp
    obtain ⟨p, hp, hc⟩ := hp
    rw [hp, List.singleton_perm] at hperm
    exact ⟨p, hperm.symm, hc⟩
  · intro hp
    obtain ⟨p, hp, hc⟩ := hp
    rw [hp, List.perm_singleton] at hperm
    exact ⟨p, hperm, hc⟩

theorem resolves_iff_of_perm (h : r.projects.Perm r'.projects) : r.Resolves s ↔ r'.Resolves s :=
  exists_congr fun _ => standsFor_iff_of_perm h

end Reactor

/-! ## §3. The request over them. -/

section Request

variable {request : Request} {reactor reactor' : Reactor} {order order' : List Coordinate}
  {c : Coordinate}

theorem Request.chosen_iff_of_perm (h : reactor.projects.Perm reactor'.projects) :
    request.Chosen reactor c ↔ request.Chosen reactor' c := by
  unfold Request.Chosen
  simp only [Reactor.mem_iff_of_perm h, Reactor.standsFor_iff_of_perm h]

/-- Without a resume point, the build order has no say in what is wanted either. -/
theorem Request.wanted_iff_of_perm (h : reactor.projects.Perm reactor'.projects)
    (hfrom : request.resumeFrom = none) :
    request.Wanted reactor order c ↔ request.Wanted reactor' order' c := by
  apply wanted_congr rfl (precedesVia_of_perm h)
  · intro b
    rw [outstanding_of_none hfrom, outstanding_of_none hfrom, chosen_iff_of_perm h]
  · unfold Excludes
    simp only [Reactor.standsFor_iff_of_perm h]

/-- The first selector that stands for no project is the same one. -/
theorem Request.find?_entries_of_perm (h : reactor.projects.Perm reactor'.projects)
    (request : Request) :
    request.entries.find? (fun e => ¬ reactor.Resolves e.1) =
      request.entries.find? (fun e => ¬ reactor'.Resolves e.1) := by
  congr 1
  funext e
  rw [decide_eq_decide, Reactor.resolves_iff_of_perm h]

end Request

/-! ## §4. Planning. -/

namespace Planning

open Reactor (Clash)

variable {projects projects' : List Project} {request : Request} {root : Option Coordinate}
  {reactor reactor' : Reactor} {order order' : List Coordinate} {o o' : Outcome}
  {plan plan' : Plan}

/-- Two plans for a request without a resume point build the same projects. -/
theorem Carries.projects_perm (h : Carries plan request reactor order)
    (h' : Carries plan' request reactor' order') (horder : Canonical reactor order)
    (horder' : Canonical reactor' order') (hperm : reactor.projects.Perm reactor'.projects)
    (hfrom : request.resumeFrom = none) : plan.projects.Perm plan'.projects := by
  rw [List.perm_ext_iff_of_nodup (List.Nodup.of_map _ (h.nodup horder))
    (List.Nodup.of_map _ (h'.nodup horder'))]
  intro p
  rw [h.mem_projects_iff horder, h'.mem_projects_iff horder', hperm.mem_iff,
    Request.wanted_iff_of_perm hperm hfrom]

/-- Two verdicts over the same projects in scope are alike. -/
theorem ScopeVerdict.alike (h : ScopeVerdict reactor request o)
    (h' : ScopeVerdict reactor' request o') (hperm : reactor.projects.Perm reactor'.projects)
    (hfrom : request.resumeFrom = none)
    (hplans : ∀ plan plan', o = .made plan → o' = .made plan' →
      plan.projects.Perm plan'.projects) : o.Alike o' := by
  unfold ScopeVerdict at h h'
  by_cases hcircular : Circular reactor.projects
  · rw [if_pos hcircular] at h
    rw [if_pos ((circular_iff_of_perm hperm).1 hcircular)] at h'
    obtain ⟨cycle, -, rfl⟩ := h
    obtain ⟨cycle', -, rfl⟩ := h'
    exact .stopped (.cyclic cycle cycle')
  · rw [if_neg hcircular] at h
    rw [if_neg (mt (circular_iff_of_perm hperm).2 hcircular)] at h'
    obtain ⟨order, -, h⟩ := h
    obtain ⟨order', -, h'⟩ := h'
    rw [← Request.find?_entries_of_perm hperm] at h'
    cases hfirst : request.entries.find? (fun e => ¬ reactor.Resolves e.1) with
    | some e =>
      rw [hfirst] at h h'
      rw [h, h']
      exact .stopped (.unresolved e.1 ((Reactor.lookup_perm hperm e.1).map _) _)
    | none =>
      rw [hfirst] at h h'
      have hwanted : (∃ c, request.Wanted reactor order c) ↔ ∃ c, request.Wanted reactor' order' c :=
        exists_congr fun _ => Request.wanted_iff_of_perm hperm hfrom
      by_cases hsome : ∃ c, request.Wanted reactor order c
      · simp only [if_pos hsome] at h
        simp only [if_pos (hwanted.1 hsome)] at h'
        obtain ⟨plan, rfl⟩ := h
        obtain ⟨plan', rfl⟩ := h'
        exact .made (hplans plan plan' rfl rfl)
      · simp only [if_neg hsome] at h
        simp only [if_neg (mt hwanted.2 hsome)] at h'
        rw [h, h']
        exact .stopped (.nothingLeft request.describe)

/-- Two verdicts over the same projects are alike. -/
theorem Verdict.alike (h : Verdict projects request root o) (h' : Verdict projects' request root o')
    (hperm : projects.Perm projects') (hfrom : request.resumeFrom = none)
    (hplans : ∀ plan plan', o = .made plan → o' = .made plan' →
      plan.projects.Perm plan'.projects) : o.Alike o' := by
  have hclashes := Reactor.clash_iff_of_perm hperm
  have hunknown : (∃ c, root = some c ∧ c ∉ projects.map Project.coordinate) ↔
      ∃ c, root = some c ∧ c ∉ projects'.map Project.coordinate := by
    simp only [(hperm.map Project.coordinate).mem_iff]
  unfold Verdict at h h'
  by_cases hclash : Clash projects
  · rw [if_pos hclash] at h
    rw [if_pos (hclashes.1 hclash)] at h'
    obtain ⟨p, q, -, -, rfl⟩ := h
    obtain ⟨p', q', -, -, rfl⟩ := h'
    exact .stopped (.duplicate _ _ _ _)
  rw [if_neg hclash] at h
  rw [if_neg (mt hclashes.2 hclash)] at h'
  by_cases hroot : ∃ c, root = some c ∧ c ∉ projects.map Project.coordinate
  · rw [if_pos hroot] at h
    rw [if_pos (hunknown.1 hroot)] at h'
    obtain ⟨c, hc, rfl⟩ := h
    obtain ⟨c', hc', rfl⟩ := h'
    -- there is only one root
    obtain rfl : c = c' := Option.some.inj (hc.symm.trans hc')
    exact .stopped (.unresolved _ (.refl _) _)
  · rw [if_neg hroot] at h
    rw [if_neg (mt hunknown.2 hroot)] at h'
    obtain ⟨reactor, hreactor, h⟩ := h
    obtain ⟨reactor', hreactor', h'⟩ := h'
    refine h.alike h' ?_ hfrom hplans
    rw [hreactor, hreactor']
    exact narrowed_perm hperm hclash root

/-- **Without a resume point, the same projects in another order of discovery have a plan of the same
projects, or planning ends in a fault of the same kind; a selector that stands for no project is then
the same one, given for the same option, and with the same candidates.** -/
theorem build_ignores_discovery (hperm : projects.Perm projects')
    (hfrom : request.resumeFrom = none) :
    ∃ o o', (build projects request root).result = .ok o ∧
      (build projects' request root).result = .ok o' ∧ o.Alike o' := by
  obtain ⟨o, hresult, hcourse⟩ := exists_course projects request root
  obtain ⟨o', hresult', hcourse'⟩ := exists_course projects' request root
  refine ⟨o, o', hresult, hresult', hcourse.verdict.alike hcourse'.verdict hperm hfrom ?_⟩
  intro plan plan' hplan hplan'
  subst hplan hplan'
  obtain ⟨reactor, order, hscope, horder, hcarries⟩ := hcourse.exists_carries rfl
  obtain ⟨reactor', order', hscope', horder', hcarries'⟩ := hcourse'.exists_carries rfl
  have hreactor : reactor.projects.Perm reactor'.projects := by
    rw [hscope.projects_eq, hscope'.projects_eq]
    exact narrowed_perm hperm hscope.distinct root
  exact hcarries.projects_perm hcarries' horder horder' hreactor hfrom

/-- The family, found in either direction, is built in two orders. -/
theorem build_ignores_discovery_family :
    family.Perm family.reverse ∧ ({} : Request).resumeFrom = none ∧
      ∃ o o', (build family {} none).result = .ok o ∧
        (build family.reverse {} none).result = .ok o' ∧ o.Alike o' ∧
          o.plan?.map Plan.coordinates = some
            [⟨"org", "parent"⟩, ⟨"org", "first"⟩, ⟨"org", "second"⟩, ⟨"org", "apart"⟩] ∧
          o'.plan?.map Plan.coordinates = some
            [⟨"org", "apart"⟩, ⟨"org", "parent"⟩, ⟨"org", "first"⟩, ⟨"org", "second"⟩] := by
  have hperm : family.Perm family.reverse := (List.reverse_perm family).symm
  have hruns : ∃ o o', (build family {} none).result = .ok o ∧
      (build family.reverse {} none).result = .ok o' ∧ o.Alike o' :=
    build_ignores_discovery hperm rfl
  obtain ⟨o, o', hresult, hresult', halike⟩ := hruns
  refine ⟨hperm, rfl, o, o', hresult, hresult', halike, ?_, ?_⟩
  · have hrun : ((build family {} none).result.toOption.bind Outcome.plan?).map Plan.coordinates =
        some [⟨"org", "parent"⟩, ⟨"org", "first"⟩, ⟨"org", "second"⟩, ⟨"org", "apart"⟩] := by cbv
    rw [hresult] at hrun
    exact hrun
  · have hrun : ((build family.reverse {} none).result.toOption.bind Outcome.plan?).map
        Plan.coordinates =
        some [⟨"org", "apart"⟩, ⟨"org", "parent"⟩, ⟨"org", "first"⟩, ⟨"org", "second"⟩] := by cbv
    rw [hresult'] at hrun
    exact hrun

end Planning

end BuildPlan
