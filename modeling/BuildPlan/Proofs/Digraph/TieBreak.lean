/-
  BuildPlan.Proofs.Digraph.TieBreak
  ─────────────────────────────────
  **WHICH VERTEX COMES FIRST WHERE NO EDGE DECIDES.**

  Each vertex belongs to the earliest vertex, in order of discovery, that reaches it
  (`first`).  When the vertices of a front part of this order have been visited, what
  they reach is finished, and nothing else (`mem_finished_visitAll_iff`).  So a vertex
  is finished before any other that belongs to a later one:

      order of discovery     … a … b …        u belongs to a, v belongs to b
      finished               … u … v …
      build order            … v … u …

  A vertex without predecessors belongs to itself, so such vertices stand in reverse
  order of discovery (`buildOrder_breaks_ties`).
-/
import BuildPlan.Proofs.Digraph.Reachability
import BuildPlan.Proofs.Digraph.Visit

namespace BuildPlan.Digraph

variable {α : Type} [DecidableEq α]

/-! ## §1. What visits finish. -/

section

variable {g : Digraph α} {x : α}

/-- Visits add to what is finished, and only at its end. -/
theorem exists_finished_visitAll (g : Digraph α) (s : Visits α) (vs : List α) :
    ∃ more, (visitAll g s vs).finished = s.finished ++ more := by
  induction s, vs using visitAll_induction g with
  | nil s => exact ⟨[], by simp⟩
  | enter s v vs hv hbelow hbeside =>
    obtain ⟨below, hbelow⟩ := hbelow
    obtain ⟨beside, hbeside⟩ := hbeside
    refine ⟨below ++ v :: beside, ?_⟩
    rw [visitAll_cons_of_mem hv, hbeside]
    show (visitAll g (s.mark v) (g.successors v)).finished ++ [v] ++ beside = _
    rw [hbelow]
    simp [Visits.mark]
  | pass s v vs hv hrest =>
    rw [visitAll_cons_of_not_mem hv]
    exact hrest

/-- What has been visited is not fresh. -/
theorem not_mem_fresh_visitAll (g : Digraph α) (s : Visits α) (vs : List α) :
    ∀ v ∈ vs, v ∉ (visitAll g s vs).fresh := by
  induction s, vs using visitAll_induction g with
  | nil s => simp
  | enter s v vs hv _ hbeside =>
    rw [visitAll_cons_of_mem hv]
    intro w hw hfresh
    rcases List.mem_cons.1 hw with rfl | hw
    · -- `w` was marked, and nothing has become fresh since
      have hmarked := (fresh_visitAll_sublist g _ vs).subset hfresh
      have hmarked' : w ∈ (s.mark w).fresh := (fresh_visitAll_sublist g _ _).subset hmarked
      simp [Visits.mark] at hmarked'
    · exact hbeside w hw hfresh
  | pass s v vs hv hrest =>
    rw [visitAll_cons_of_not_mem hv]
    intro w hw hfresh
    rcases List.mem_cons.1 hw with rfl | hw
    · exact hv ((fresh_visitAll_sublist g _ vs).subset hfresh)
    · exact hrest w hw hfresh

/-- What stops being fresh is finished when the visits are over. -/
theorem mem_finished_or_fresh_visitAll (g : Digraph α) (s : Visits α) (vs : List α) :
    ∀ x, x ∈ s.finished ∨ x ∈ s.fresh →
      x ∈ (visitAll g s vs).finished ∨ x ∈ (visitAll g s vs).fresh := by
  induction s, vs using visitAll_induction g with
  | nil s => simp
  | enter s v vs hv hbelow hbeside =>
    rw [visitAll_cons_of_mem hv]
    intro x hx
    apply hbeside
    by_cases hxv : x = v
    · left
      simp [Visits.finish, hxv]
    · have hmark : x ∈ (s.mark v).finished ∨ x ∈ (s.mark v).fresh := by
        simpa [Visits.mark, hxv] using hx
      exact (hbelow x hmark).imp_left (List.mem_append_left _)
  | pass s v vs hv hrest =>
    rw [visitAll_cons_of_not_mem hv]
    exact hrest

/-- What the visits finish, the vertices of the list reach. -/
theorem exists_reaches_of_mem_finished (g : Digraph α) (s : Visits α) (vs : List α) :
    ∀ x ∈ (visitAll g s vs).finished, x ∈ s.finished ∨ ∃ r ∈ vs, r = x ∨ g.Leads r x := by
  induction s, vs using visitAll_induction g with
  | nil s =>
    intro x hx
    rw [visitAll_nil] at hx
    exact .inl hx
  | enter s v vs hv hbelow hbeside =>
    rw [visitAll_cons_of_mem hv]
    intro x hx
    rcases hbeside x hx with hx | ⟨r, hr, hrx⟩
    · rcases List.mem_append.1 hx with hx | hx
      · rcases hbelow x hx with hx | ⟨w, hw, hwx⟩
        · exact .inl hx
        · -- `v` has an edge to the successor that reaches `x`
          right
          refine ⟨v, List.mem_cons_self, .inr ?_⟩
          have hvw : g.Edge v w := mem_successors.1 hw
          rcases hwx with rfl | hwx
          · exact .single hvw
          · exact .head hvw hwx
      · exact .inr ⟨v, List.mem_cons_self, .inl (List.mem_singleton.1 hx).symm⟩
    · exact .inr ⟨r, List.mem_cons_of_mem v hr, hrx⟩
  | pass s v vs hv hrest =>
    rw [visitAll_cons_of_not_mem hv]
    intro x hx
    rcases hrest x hx with hx | ⟨r, hr, hrx⟩
    · exact .inl hx
    · exact .inr ⟨r, List.mem_cons_of_mem v hr, hrx⟩

/-- The successors of what the visits finish are not fresh when they are over. -/
theorem not_mem_fresh_of_mem_finished (g : Digraph α) (s : Visits α) (vs : List α) :
    ∀ x ∈ (visitAll g s vs).finished,
      x ∈ s.finished ∨ ∀ w ∈ g.successors x, w ∉ (visitAll g s vs).fresh := by
  induction s, vs using visitAll_induction g with
  | nil s =>
    intro x hx
    rw [visitAll_nil] at hx
    exact .inl hx
  | enter s v vs hv hbelow hbeside =>
    rw [visitAll_cons_of_mem hv]
    intro x hx
    -- what is not fresh below `v` is not fresh beside it
    have hfresh := fresh_visitAll_sublist g
      ((visitAll g (s.mark v) (g.successors v)).finish v) vs
    rcases hbeside x hx with hx | hx
    · rcases List.mem_append.1 hx with hx | hx
      · refine (hbelow x hx).imp_right ?_
        intro h w hw hmem
        exact h w hw (hfresh.subset hmem)
      · right
        rw [List.mem_singleton.1 hx]
        intro w hw hmem
        exact not_mem_fresh_visitAll g (s.mark v) _ w hw (hfresh.subset hmem)
    · exact .inr hx
  | pass s v vs hv hrest =>
    rw [visitAll_cons_of_not_mem hv]
    exact hrest

/-- **When the vertices of a list have been visited, what they reach is finished.** -/
theorem mem_finished_visitAll_iff {front : List α} (hfront : ∀ r ∈ front, r ∈ g.vertices) :
    x ∈ (visitAll g (Visits.start g) front).finished ↔ ∃ r ∈ front, r = x ∨ g.Leads r x := by
  -- a vertex that is not fresh any more is finished
  have hfinished : ∀ w ∈ g.vertices, w ∉ (visitAll g (Visits.start g) front).fresh →
      w ∈ (visitAll g (Visits.start g) front).finished := by
    intro w hw hfresh
    exact (mem_finished_or_fresh_visitAll g _ front w (.inr hw)).resolve_right hfresh
  constructor
  · intro hx
    exact (exists_reaches_of_mem_finished g _ front x hx).resolve_left (by simp [Visits.start])
  · rintro ⟨r, hr, hrx⟩
    have hroot : r ∈ (visitAll g (Visits.start g) front).finished :=
      hfinished r (hfront r hr) (not_mem_fresh_visitAll g _ front r hr)
    rcases hrx with rfl | hrx
    · exact hroot
    · -- along the path, each vertex is finished since the one before it is
      have hstep : ∀ u w, u ∈ (visitAll g (Visits.start g) front).finished → g.Edge u w →
          w ∈ (visitAll g (Visits.start g) front).finished := by
        intro u w hu huw
        refine hfinished w (g.target_mem _ huw) ?_
        exact (not_mem_fresh_of_mem_finished g _ front u hu).resolve_left
          (by simp [Visits.start]) w (mem_successors.2 huw)
      induction hrx with
      | single h => exact hstep _ _ hroot h
      | tail _ h ih => exact hstep _ _ ih h

end

/-! ## §2. The earliest vertex that reaches another. -/

/-- The earliest vertex, in order of discovery, that is the given one or leads to it. -/
def first (g : Digraph α) (x : α) : α :=
  (g.vertices.find? fun r => r = x ∨ g.Leads r x).getD x

section

variable {g : Digraph α} {u v x : α}

/-- The first vertex of `x` is `x` or leads to it, and none discovered before it does. -/
theorem exists_vertices_eq_first (hx : x ∈ g.vertices) :
    ∃ front tail, g.vertices = front ++ g.first x :: tail ∧
      (g.first x = x ∨ g.Leads (g.first x) x) ∧ ∀ r ∈ front, ¬ (r = x ∨ g.Leads r x) := by
  unfold first
  cases hfind : g.vertices.find? fun r => r = x ∨ g.Leads r x with
  | none =>
    -- the vertex itself meets the condition
    rw [List.find?_eq_none] at hfind
    exact absurd (hfind x hx) (by simp)
  | some r =>
    obtain ⟨hr, front, tail, heq, hfront⟩ := List.find?_eq_some_iff_append.1 hfind
    refine ⟨front, tail, heq, by simpa using hr, ?_⟩
    intro r' hr'
    simpa using hfront r' hr'

/-- A vertex that nothing leads to is its own first one. -/
theorem first_eq_self (hx : x ∈ g.vertices) (h : g.predecessors x = []) : g.first x = x := by
  obtain ⟨-, -, -, hreaches, -⟩ := exists_vertices_eq_first hx
  refine hreaches.resolve_right ?_
  intro hleads
  -- the last edge of a path to `x` comes from a predecessor
  obtain ⟨w, -, hw⟩ := Relation.TransGen.tail'_iff.1 hleads
  have hmem : w ∈ g.predecessors x := mem_predecessors.2 hw
  exact List.ne_nil_of_mem hmem h

/-- What belongs to an earlier vertex is finished earlier. -/
theorem standsBefore_finishing (hu : u ∈ g.vertices) (hv : v ∈ g.vertices)
    (h : StandsBefore g.vertices (g.first u) (g.first v)) : StandsBefore g.finishing u v := by
  obtain ⟨-, -, -, hreaches, -⟩ := exists_vertices_eq_first hu
  obtain ⟨front, tail, heq, -, hfront⟩ := exists_vertices_eq_first hv
  have hsub : ∀ r ∈ front, r ∈ g.vertices := by
    intro r hr
    rw [heq]
    exact List.mem_append_left _ hr
  -- the visits of the front part finish `u` and do not reach `v`
  have hfirst : g.first u ∈ front := by
    rw [heq] at h
    exact (standsBefore_iff_mem_front (heq ▸ g.vertices_nodup)).1 h
  have hudone : u ∈ (visitAll g (Visits.start g) front).finished :=
    (mem_finished_visitAll_iff hsub).2 ⟨g.first u, hfirst, hreaches⟩
  have hvnot : v ∉ (visitAll g (Visits.start g) front).finished := by
    rw [mem_finished_visitAll_iff hsub]
    rintro ⟨r, hr, hrv⟩
    exact hfront r hr hrv
  -- the other visits come behind them
  have hvdone : v ∈ g.finishing := (mem_finished_visitAll_iff fun _ => id).2 ⟨v, hv, .inl rfl⟩
  have hsplit : g.finishing =
      (visitAll g (visitAll g (Visits.start g) front) (g.first v :: tail)).finished := by
    rw [← visitAll_append, ← heq]
    rfl
  obtain ⟨more, hmore⟩ := exists_finished_visitAll g
    (visitAll g (Visits.start g) front) (g.first v :: tail)
  rw [hsplit, hmore] at hvdone ⊢
  exact standsBefore_append hudone ((List.mem_append.1 hvdone).resolve_left hvnot)

end

/-! ## §3. The law of the ties. -/

/-- **In the build order of an acyclic graph, a vertex that belongs to a later vertex stands before
one that belongs to an earlier vertex; so vertices without predecessors stand in reverse order of
discovery.** -/
theorem buildOrder_breaks_ties (g : Digraph α) (h : ∀ v, ¬ g.Leads v v) :
    ∃ order, g.buildOrder = .ok order ∧
      (∀ u ∈ g.vertices, ∀ v ∈ g.vertices,
        StandsBefore g.vertices (g.first u) (g.first v) → StandsBefore order v u) ∧
        ∀ u v, g.predecessors u = [] → g.predecessors v = [] →
          StandsBefore g.vertices u v → StandsBefore order v u := by
  refine ⟨_, buildOrder_eq_ok h, ?_, ?_⟩
  · intro u hu v hv hfirst
    exact (standsBefore_finishing hu hv hfirst).reverse
  · intro u v hupred hvpred huv
    have hu : u ∈ g.vertices := huv.subset (by simp)
    have hv : v ∈ g.vertices := huv.mem_right
    apply StandsBefore.reverse
    apply standsBefore_finishing hu hv
    rw [first_eq_self hu hupred, first_eq_self hv hvpred]
    exact huv

/-- 3 is discovered before 1, which leads to it; 4 belongs to 1, though 5 leads to it as well. -/
def shared : Digraph Nat :=
  ((((empty.insertVertex 3).insertEdge 1 3).insertVertex 5).insertEdge 5 4).insertEdge 1 4

/-- The law at a vertex that is discovered before the one that leads to it, and at one that two
others lead to. -/
theorem buildOrder_breaks_ties_shared :
    (∀ v, ¬ shared.Leads v v) ∧ shared.buildOrder = .ok [5, 1, 4, 3] ∧
      shared.first 3 = 3 ∧ shared.first 4 = 1 ∧ StandsBefore shared.vertices 3 1 ∧
        StandsBefore [5, 1, 4, 3] 4 3 ∧
          shared.predecessors 1 = [] ∧ shared.predecessors 5 = [] ∧
            StandsBefore shared.vertices 1 5 ∧ StandsBefore [5, 1, 4, 3] 5 1 := by
  have hacyclic : shared.Acyclic := findCycle_eq_none_iff.1 (by cbv)
  have horder : shared.buildOrder = .ok [5, 1, 4, 3] := by cbv
  have hthree : shared.first 3 = 3 := by cbv
  have hfour : shared.first 4 = 1 := by cbv
  have hthreeOne : StandsBefore shared.vertices 3 1 := by
    show [3, 1].Sublist [3, 1, 5, 4]
    decide
  have honeFive : StandsBefore shared.vertices 1 5 := by
    show [1, 5].Sublist [3, 1, 5, 4]
    decide
  obtain ⟨order, hsome, hties, hfree⟩ := buildOrder_breaks_ties shared hacyclic
  rw [horder] at hsome
  injection hsome with hsome
  subst hsome
  refine ⟨hacyclic, horder, hthree, hfour, hthreeOne, hties 3 (by decide) 4 (by decide) ?_,
    by cbv, by cbv, honeFive, hfree 1 5 (by cbv) (by cbv) honeFive⟩
  rw [hthree, hfour]
  exact hthreeOne

end BuildPlan.Digraph
