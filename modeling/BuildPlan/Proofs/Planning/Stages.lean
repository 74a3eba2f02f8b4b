/-
  BuildPlan.Proofs.Planning.Stages
  ────────────────────────────────
  **EACH STAGE COMPUTES ITS SET.**

  Over a build order of the projects and with every selector resolved, no look-up of
  a stage fails, and the sets that the stages pass on are those of the request:

      exists_resumeStage    what is outstanding
      exists_closeStage     what is gathered
      emit_eq               what is wanted, in building order
      exists_projectsAt     the projects of the reactor that are meant

  So a selection is the wanted part of the order, or reports that there is none
  (`exists_select`).
-/
import BuildPlan.Proofs.Digraph.Reachability
import BuildPlan.Proofs.Planning.Wanted

namespace BuildPlan.Planning

variable {reactor : Reactor} {order : List Coordinate} {request : Request} {named : Named}

/-- The order is a build order of the projects of the reactor. -/
abbrev Canonical (reactor : Reactor) (order : List Coordinate) : Prop :=
  (Precedence.graph reactor.projects).IsBuildOrder order

/-- A build order of the reactor holds its projects and no others. -/
theorem Canonical.mem_iff (h : Canonical reactor order) {c : Coordinate} :
    c ∈ order ↔ c ∈ reactor := by
  rw [Digraph.IsBuildOrder.mem_iff h, Precedence.mem_vertices_graph]
  rfl

theorem Canonical.not_circular (h : Canonical reactor order) : ¬ Circular reactor.projects :=
  Precedence.acyclic_graph_iff.1 (Digraph.IsBuildOrder.acyclic h)

/-- A chain of precedences leads forward in the order. -/
theorem Canonical.standsBefore (h : Canonical reactor order) {u v : Coordinate}
    (huv : PrecedesVia reactor.projects u v) : StandsBefore order u v := by
  apply Digraph.IsBuildOrder.standsBefore_of_leads h
  rw [Precedence.leads_graph]
  exact huv

/-! ## §1. From the selection to the base. -/

/-- The stages start from the chosen projects. -/
theorem mem_start_iff (hnamed : named.Answers request reactor) (horder : Canonical reactor order)
    {c : Coordinate} : c ∈ start order named.selected ↔ request.Chosen reactor c := by
  unfold start Request.Chosen
  by_cases h : named.selected = []
  · rw [if_pos h, mem_distinct, horder.mem_iff]
    simp [hnamed.selected_eq_nil.1 h]
  · have hsome : request.selected ≠ [] := fun hnil => h (hnamed.selected_eq_nil.2 hnil)
    rw [if_neg h, hnamed.selected]
    simp [hsome]

/-- No look-up of the cut fails when the resume point and the base are in the order. -/
theorem exists_resume {point : Coordinate} {base : List Coordinate} (hnodup : order.Nodup)
    (hpoint : point ∈ order) (hbase : ∀ c ∈ base, c ∈ order) :
    ∃ kept, resume order point base = .ok kept ∧
      ∀ c, c ∈ kept ↔ c = point ∨ c ∈ base ∧ StandsBefore order point c := by
  obtain ⟨rest, hrest⟩ : ∃ rest, fromLast? point order = some rest := by
    cases h : fromLast? point order with
    | none => exact absurd hpoint (fromLast?_eq_none_iff.1 h)
    | some rest => exact ⟨rest, rfl⟩
  have hfind : base.find? (· ∉ order) = none := find?_not_eq_none_iff.2 hbase
  unfold resume
  rw [hrest, hfind]
  refine ⟨_, rfl, ?_⟩
  intro c
  have hkept : c ∈ base.filter (· ∈ rest) ↔
      c ∈ base ∧ (c = point ∨ StandsBefore order point c) := by
    rw [List.mem_filter, decide_eq_true_eq, mem_fromLast?_iff hnodup hrest]
  -- the point is there in any case: it was kept, or it is added
  by_cases hc : c = point
  · subst hc
    split <;> simp_all
  · split <;> simp [hc, hkept]

/-- The cut at the resume point succeeds, and leaves what is outstanding. -/
theorem exists_resumeStage (hnamed : named.Answers request reactor)
    (horder : Canonical reactor order) :
    ∃ base,
      (resumeStage order named.resumeFrom (start order named.selected)).result = .ok base ∧
        ∀ c, c ∈ base ↔ request.Outstanding reactor order c := by
  have hresume := hnamed.resumeFrom
  cases hfrom : request.resumeFrom with
  | none =>
    -- nothing is cut
    rw [hfrom] at hresume
    generalize named.resumeFrom = point? at hresume
    cases hresume
    refine ⟨_, rfl, ?_⟩
    intro c
    rw [mem_start_iff hnamed horder, Request.outstanding_of_none hfrom]
  | some s =>
    rw [hfrom] at hresume
    generalize named.resumeFrom = point? at hresume
    cases hresume with
    | @some _ point hpoint =>
      have hstart : ∀ c ∈ start order named.selected, c ∈ order := by
        intro c hc
        exact horder.mem_iff.2 (((mem_start_iff hnamed horder).1 hc).mem)
      obtain ⟨kept, hkept, hmem⟩ :=
        exists_resume horder.nodup (horder.mem_iff.2 hpoint.mem) hstart
      refine ⟨kept, ?_, ?_⟩
      · unfold resumeStage
        exact Journal.result_bind_of_ok (Journal.result_mapError_of_ok hkept _) _
      · intro c
        rw [hmem, mem_start_iff hnamed horder, Request.outstanding_of_some hfrom hpoint]

/-! ## §2. From the base to what is emitted. -/

/-- Closing over projects of the reactor succeeds, and adds what chains of precedences lead to. -/
theorem exists_close (how : AlsoMake) {base : List Coordinate} (hbase : ∀ c ∈ base, c ∈ reactor) :
    ∃ closed, close (Precedence.graph reactor.projects) how base = .ok closed ∧
      ∀ c, c ∈ closed ↔
        c ∈ base ∨
          ((how = .prerequisites ∨ how = .both) ∧
            ∃ b ∈ base, PrecedesVia reactor.projects c b) ∨
          ((how = .dependents ∨ how = .both) ∧
            ∃ b ∈ base, PrecedesVia reactor.projects b c) := by
  have hvertices : ∀ c ∈ base, c ∈ (Precedence.graph reactor.projects).vertices := by
    intro c hc
    exact Precedence.mem_vertices_graph.2 (hbase c hc)
  obtain ⟨before, hbefore, hbeforemem⟩ := Digraph.exists_ancestors hvertices
  obtain ⟨after, hafter, haftermem⟩ := Digraph.exists_descendants hvertices
  rw [Precedence.leads_graph] at hbeforemem haftermem
  unfold close
  rw [hbefore, hafter]
  -- each way of making more takes both closures, one of them or none
  cases how <;> refine ⟨_, rfl, fun c => ?_⟩ <;>
    simp [hbeforemem, haftermem]

/-- Closing over what is outstanding succeeds, and leaves what is gathered. -/
theorem exists_closeStage {base : List Coordinate}
    (hbase : ∀ c, c ∈ base ↔ request.Outstanding reactor order c) :
    ∃ closed,
      (closeStage (Precedence.graph reactor.projects) request.alsoMake base).result = .ok closed ∧
        ∀ c, c ∈ closed ↔ request.Gathered reactor order c := by
  obtain ⟨closed, hclosed, hmem⟩ :=
    exists_close request.alsoMake fun c hc => ((hbase c).1 hc).mem
  refine ⟨closed, ?_, ?_⟩
  · unfold closeStage
    rw [hclosed]
    rfl
  · intro c
    simp only [hbase] at hmem
    exact hmem c

open scoped Classical in
/-- What is emitted is the wanted part of the order. -/
theorem emit_eq (hnamed : named.Answers request reactor) {closed : List Coordinate}
    (hclosed : ∀ c, c ∈ closed ↔ request.Gathered reactor order c) :
    emit order closed named.excluded = order.filter (request.Wanted reactor order ·) := by
  unfold emit
  apply List.filter_congr
  intro c _
  rw [decide_eq_decide, hclosed, hnamed.excluded]
  rfl

open scoped Classical in
/-- Every wanted project stands in the order, so the filter misses none. -/
theorem filter_wanted_eq_nil_iff (request : Request) (horder : Canonical reactor order) :
    order.filter (request.Wanted reactor order ·) = [] ↔
      ¬ ∃ c, request.Wanted reactor order c := by
  rw [List.filter_eq_nil_iff, not_exists]
  constructor
  · intro h c hc
    exact h c (horder.mem_iff.2 hc.mem) (decide_eq_true hc)
  · intro h c _ hc
    exact h c (of_decide_eq_true hc)

/-- No look-up fails where every coordinate is in the reactor, and each finds its project. -/
theorem exists_projectsAt {cs : List Coordinate} (h : ∀ c ∈ cs, c ∈ reactor) :
    ∃ chosen, projectsAt reactor cs = .ok chosen ∧ chosen.map Project.coordinate = cs ∧
      ∀ p ∈ chosen, p ∈ reactor.projects := by
  induction cs with
  | nil => exact ⟨[], rfl, rfl, by simp⟩
  | cons c cs ih =>
    obtain ⟨hc, hcs⟩ := List.forall_mem_cons.1 h
    obtain ⟨p, hp, rfl⟩ := Reactor.mem_iff.1 hc
    obtain ⟨chosen, hchosen, hmap, hmem⟩ := ih hcs
    refine ⟨p :: chosen, ?_, congrArg _ hmap, List.forall_mem_cons.2 ⟨hp, hmem⟩⟩
    unfold projectsAt at hchosen ⊢
    rw [List.mapM_cons, Reactor.get?_eq_some_iff.2 ⟨hp, rfl⟩, hchosen]
    rfl

/-- With its look-ups behind it, the last stage fails only where nothing is left. -/
theorem result_emitStage {cs : List Coordinate} {chosen : List Project}
    (h : projectsAt reactor cs = .ok chosen) (options : String) :
    (emitStage reactor options cs).result =
      if chosen = [] then .error (.fault (.nothingLeft options)) else .ok chosen := by
  unfold emitStage
  rw [Journal.result_bind_of_ok (Journal.result_mapError_of_ok h _)]
  split <;> rfl

/-! ## §3. All stages. -/

open scoped Classical in
/-- **What is selected is the wanted part of the order, unless nothing is wanted.** -/
theorem exists_select (horder : Canonical reactor order)
    (hresolves : ∀ e ∈ request.entries, reactor.Resolves e.1) :
    ∃ chosen : List Project,
      chosen.map Project.coordinate = order.filter (request.Wanted reactor order ·) ∧
        (∀ p ∈ chosen, p ∈ reactor.projects) ∧
          (select order (Precedence.graph reactor.projects) reactor request).result =
            if chosen = [] then .error (.fault (.nothingLeft request.describe))
            else .ok chosen := by
  -- the sets that the stages pass on, from the selectors to what is gathered
  obtain ⟨named, hresolve, hnamed⟩ := exists_resolve hresolves
  obtain ⟨base, hbase, hbasemem⟩ := exists_resumeStage hnamed horder
  obtain ⟨closed, hclosed, hclosedmem⟩ := exists_closeStage hbasemem
  -- what is emitted stands in the order, so each of its look-ups finds a project
  have hthere : ∀ c ∈ emit order closed named.excluded, c ∈ reactor := by
    intro c hc
    exact horder.mem_iff.1 (List.mem_of_mem_filter hc)
  obtain ⟨chosen, hchosen, hmap, hmem⟩ := exists_projectsAt hthere
  refine ⟨chosen, hmap.trans (emit_eq hnamed hclosedmem), hmem, ?_⟩
  unfold select
  rw [Journal.result_bind_of_ok (Journal.result_mapError_of_ok hresolve _),
    Journal.result_bind_of_ok hbase, Journal.result_bind_of_ok hclosed, result_emitStage hchosen]

/-- The first selector that stands for no project ends the selection. -/
theorem select_of_find? {graph : Digraph Coordinate} {s : Selector} {origin : String}
    (h : request.entries.find? (fun e => ¬ reactor.Resolves e.1) = some (s, origin)) :
    (select order graph reactor request).result =
      .error (.fault (.unresolved s ((reactor.lookup s).map Project.coordinate)
        (some origin))) := by
  unfold select
  exact Journal.result_bind_of_error (Journal.result_mapError_of_error (resolve_of_find? h) _) _

end BuildPlan.Planning
