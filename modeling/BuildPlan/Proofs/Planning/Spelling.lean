/-
  BuildPlan.Proofs.Planning.Spelling
  ──────────────────────────────────
  **ONE REQUEST IN SEVERAL SPELLINGS.**

  A selector may be a coordinate, a text that reads as one, a name or a directory; it
  may be padded, given twice, or stand in any place of its list, and blank ones may
  stand between.  Once the selectors are resolved, all that is left of this is three
  answers: which projects are selected, which are excluded, and where to resume.

      Named.Agrees.wanted_iff    answers that agree want the same projects
      Carries.unique             what is wanted is all that a plan depends on

  So requests whose answers agree have the very same plan, or leave nothing to build
  both (`build_ignores_spelling`).
-/
import BuildPlan.Proofs.Planning.Contents

namespace BuildPlan.Planning

variable {projects : List Project} {request request' : Request} {root : Option Coordinate}
  {reactor : Reactor} {order : List Coordinate} {named named' : Named} {plan plan' : Plan}
  {c point : Coordinate}

/-! ## §1. Answers that agree. -/

/-- The selected projects are the same, and so are the excluded ones and the resume point. -/
structure Named.Agrees (named named' : Named) : Prop where
  /-- The same projects are selected, in whatever order. -/
  selected : ∀ c, c ∈ named.selected ↔ c ∈ named'.selected
  /-- The same projects are excluded. -/
  excluded : ∀ c, c ∈ named.excluded ↔ c ∈ named'.excluded
  /-- Both resume at the same project, or neither does. -/
  resumeFrom : named.resumeFrom = named'.resumeFrom

namespace Named.Answers

theorem chosen_iff (h : named.Answers request reactor) :
    request.Chosen reactor c ↔ (named.selected = [] ∧ c ∈ reactor) ∨ c ∈ named.selected := by
  unfold Request.Chosen
  rw [h.selected_eq_nil, h.selected]

theorem resumeFrom_eq_none (h : named.Answers request reactor) (hnone : named.resumeFrom = none) :
    request.resumeFrom = none := by
  have hrel := h.resumeFrom
  rw [hnone] at hrel
  cases hfrom : request.resumeFrom with
  | none => rfl
  | some s =>
    rw [hfrom] at hrel
    cases hrel

/-- The answer for the resume point is what its selector stands for. -/
theorem exists_resumeFrom (h : named.Answers request reactor)
    (hsome : named.resumeFrom = some point) :
    ∃ s, request.resumeFrom = some s ∧ reactor.StandsFor s point := by
  have hrel := h.resumeFrom
  rw [hsome] at hrel
  cases hfrom : request.resumeFrom with
  | none =>
    rw [hfrom] at hrel
    cases hrel
  | some s =>
    rw [hfrom] at hrel
    cases hrel with
    | some hpoint => exact ⟨s, rfl, hpoint⟩

end Named.Answers

namespace Named.Agrees

theorem chosen_iff (hagrees : named.Agrees named') (h : named.Answers request reactor)
    (h' : named'.Answers request' reactor) :
    request.Chosen reactor c ↔ request'.Chosen reactor c := by
  have hnil : named.selected = [] ↔ named'.selected = [] := by
    simp only [List.eq_nil_iff_forall_not_mem, hagrees.selected]
  rw [h.chosen_iff, h'.chosen_iff, hnil, hagrees.selected]

theorem outstanding_iff (hagrees : named.Agrees named') (h : named.Answers request reactor)
    (h' : named'.Answers request' reactor) :
    request.Outstanding reactor order c ↔ request'.Outstanding reactor order c := by
  cases hpoint : named.resumeFrom with
  | none =>
    rw [Request.outstanding_of_none (h.resumeFrom_eq_none hpoint),
      Request.outstanding_of_none (h'.resumeFrom_eq_none (hagrees.resumeFrom ▸ hpoint)),
      hagrees.chosen_iff h h']
  | some point =>
    obtain ⟨s, hfrom, hs⟩ := h.exists_resumeFrom hpoint
    obtain ⟨s', hfrom', hs'⟩ := h'.exists_resumeFrom (hagrees.resumeFrom ▸ hpoint)
    rw [Request.outstanding_of_some hfrom hs, Request.outstanding_of_some hfrom' hs',
      hagrees.chosen_iff h h']

/-- Requests whose answers agree want the same projects. -/
theorem wanted_iff (hagrees : named.Agrees named') (h : named.Answers request reactor)
    (h' : named'.Answers request' reactor) (hmake : request.alsoMake = request'.alsoMake) :
    request.Wanted reactor order c ↔ request'.Wanted reactor order c := by
  apply Request.wanted_congr hmake rfl
  · intro b
    exact hagrees.outstanding_iff h h'
  · rw [← h.excluded, ← h'.excluded, hagrees.excluded]

end Named.Agrees

/-! ## §2. The plan. -/

/-- There is only one plan of the same wanted projects. -/
theorem Carries.unique (h : Carries plan request reactor order)
    (h' : Carries plan' request' reactor order)
    (hwanted : ∀ c, request.Wanted reactor order c ↔ request'.Wanted reactor order c) :
    plan = plan' := by
  have hcoordinates : plan.coordinates = plan'.coordinates := by
    rw [h.coordinates_eq, h'.coordinates_eq]
    apply List.filter_congr
    intro c _
    rw [decide_eq_decide, hwanted]
  have hprojects : plan.projects = plan'.projects :=
    Reactor.eq_of_map_coordinate_eq h.mem h'.mem hcoordinates
  obtain ⟨ps, graph⟩ := plan
  obtain ⟨ps', graph'⟩ := plan'
  exact congrArg₂ Plan.mk hprojects (h.graph_eq.trans h'.graph_eq.symm)

/-- Planning for two requests that want the same projects ends with one plan, or with none twice. -/
theorem exists_same_end (hscope : Scoped projects root reactor)
    (hacyclic : ¬ Circular reactor.projects)
    (hresolves : ∀ e ∈ request.entries, reactor.Resolves e.1)
    (hresolves' : ∀ e ∈ request'.entries, reactor.Resolves e.1)
    (hwanted : ∀ order c, request.Wanted reactor order c ↔ request'.Wanted reactor order c) :
    ∃ o o', (build projects request root).result = .ok o ∧
      (build projects request' root).result = .ok o' ∧
        ((∃ plan, o = .made plan ∧ o' = .made plan) ∨
          (∃ options, o = .stopped (.nothingLeft options)) ∧
            ∃ options', o' = .stopped (.nothingLeft options')) := by
  obtain ⟨o, hresult, hcourse⟩ := exists_course projects request root
  obtain ⟨o', hresult', hcourse'⟩ := exists_course projects request' root
  refine ⟨o, o', hresult, hresult', ?_⟩
  obtain ⟨order, horder, hend⟩ := hcourse.nothing_or_carries hscope hacyclic hresolves
  obtain ⟨order', horder', hend'⟩ := hcourse'.nothing_or_carries hscope hacyclic hresolves'
  -- both runs sort the same graph
  rw [horder] at horder'
  injection horder' with horder'
  subst horder'
  have hsome : (∃ c, request.Wanted reactor order c) ↔ ∃ c, request'.Wanted reactor order c :=
    exists_congr (hwanted order)
  rcases hend with ⟨rfl, hnone⟩ | ⟨plan, rfl, hwants, hcarries⟩
  · rcases hend' with ⟨rfl, -⟩ | ⟨plan', -, hwants', -⟩
    · exact .inr ⟨⟨_, rfl⟩, _, rfl⟩
    · exact absurd (hsome.2 hwants') hnone
  · rcases hend' with ⟨-, hnone'⟩ | ⟨plan', rfl, -, hcarries'⟩
    · exact absurd (hsome.1 hwants) hnone'
    · exact .inl ⟨plan, rfl, by rw [hcarries.unique hcarries' (hwanted order)]⟩

/-- **Over projects without a ring, two requests for the same to be made as well, whose selectors
have the same answers once they are trimmed, freed of blanks and of repeats, have the same plan, or
leave nothing to build both.** -/
theorem build_ignores_spelling {selected selected' excluded excluded' : List Selector}
    {resumeFrom resumeFrom' : Option Selector} {alsoMake : AlsoMake}
    (hscope : Scoped projects root reactor) (hacyclic : ¬ Circular reactor.projects)
    (h : resolve reactor (.of selected excluded resumeFrom alsoMake) = .ok named)
    (h' : resolve reactor (.of selected' excluded' resumeFrom' alsoMake) = .ok named')
    (hselected : ∀ c, c ∈ named.selected ↔ c ∈ named'.selected)
    (hexcluded : ∀ c, c ∈ named.excluded ↔ c ∈ named'.excluded)
    (hresumeFrom : named.resumeFrom = named'.resumeFrom) :
    ∃ o o', (build projects (.of selected excluded resumeFrom alsoMake) root).result = .ok o ∧
      (build projects (.of selected' excluded' resumeFrom' alsoMake) root).result = .ok o' ∧
        ((∃ plan, o = .made plan ∧ o' = .made plan) ∨
          (∃ options, o = .stopped (.nothingLeft options)) ∧
            ∃ options', o' = .stopped (.nothingLeft options')) := by
  have hagrees : named.Agrees named' := ⟨hselected, hexcluded, hresumeFrom⟩
  have hwanted : ∀ order c,
      Request.Wanted (.of selected excluded resumeFrom alsoMake) reactor order c ↔
        Request.Wanted (.of selected' excluded' resumeFrom' alsoMake) reactor order c := by
    intro order c
    exact hagrees.wanted_iff (answers_of_resolve h) (answers_of_resolve h') rfl
  exact exists_same_end hscope hacyclic (resolves_of_resolve h) (resolves_of_resolve h') hwanted

/-- The second child, resumed from the first, in the words of a careless user. -/
def secondSelected : List Selector := [.text " :second ", .text "", .text ":second"]

/-- The same in coordinates, one of them written out. -/
def secondSelected' : List Selector := [.text "org:second", .exact ⟨"org", "second"⟩]

/-- The law at the second child, once in the words of a careless user and once in coordinates. -/
theorem build_ignores_spelling_family :
    ∃ named named', Scoped family none familyReactor ∧ ¬ Circular familyReactor.projects ∧
      resolve familyReactor (.of secondSelected [.text " "] (some (.text "first\t"))
        .prerequisites) = .ok named ∧
      resolve familyReactor (.of secondSelected' [] (some (.exact ⟨"org", "first"⟩))
        .prerequisites) = .ok named' ∧
      (∀ c, c ∈ named.selected ↔ c ∈ named'.selected) ∧
      (∀ c, c ∈ named.excluded ↔ c ∈ named'.excluded) ∧ named.resumeFrom = named'.resumeFrom ∧
      ∃ o o', (build family (.of secondSelected [.text " "] (some (.text "first\t"))
          .prerequisites) none).result = .ok o ∧
        (build family (.of secondSelected' [] (some (.exact ⟨"org", "first"⟩))
          .prerequisites) none).result = .ok o' ∧
          ((∃ plan, o = .made plan ∧ o' = .made plan) ∨
            (∃ options, o = .stopped (.nothingLeft options)) ∧
              ∃ options', o' = .stopped (.nothingLeft options')) := by
  have hscope : Scoped family none familyReactor := scoped_self familyReactor
  have horder : (Precedence.graph familyReactor.projects).buildOrder =
      .ok [⟨"org", "parent"⟩, ⟨"org", "first"⟩, ⟨"org", "second"⟩, ⟨"org", "apart"⟩] := by cbv
  have hacyclic : ¬ Circular familyReactor.projects :=
    (Canonical.of_buildOrder horder).not_circular
  have h : resolve familyReactor (.of secondSelected [.text " "] (some (.text "first\t"))
      .prerequisites) = .ok ⟨[⟨"org", "second"⟩], [], some ⟨"org", "first"⟩⟩ := by decide +kernel
  have h' : resolve familyReactor (.of secondSelected' [] (some (.exact ⟨"org", "first"⟩))
      .prerequisites) = .ok ⟨[⟨"org", "second"⟩], [], some ⟨"org", "first"⟩⟩ := by decide +kernel
  exact ⟨_, _, hscope, hacyclic, h, h', fun _ => .rfl, fun _ => .rfl, rfl,
    build_ignores_spelling hscope hacyclic h h' (fun _ => .rfl) (fun _ => .rfl) rfl⟩

end BuildPlan.Planning
