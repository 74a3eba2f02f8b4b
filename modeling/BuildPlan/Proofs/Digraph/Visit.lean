/-
  BuildPlan.Proofs.Digraph.Visit
  ──────────────────────────────
  **THE BUILD ORDER IS A RECURSION READ BACKWARDS.**

  The recursion visits the vertices in order of discovery.  To visit a fresh vertex is
  to mark it, to visit its fresh successors in order of insertion, and then to put it
  behind the vertices that are finished (`visitAll`).  The walk keeps a path of
  vertices with their successors not looked at instead of calling itself.  What the
  recursion would make of a state of the walk is the same after every move
  (`Move.outcome_eq`):

      start, enter    a visit begins     the path gets a vertex
      pass            no visit           the successor is not fresh
      finish          a visit is over    the path loses its end

  So a build order is always what the recursion has finished, the last vertex first
  (`eq_of_buildOrder`), and an acyclic graph has this order (`buildOrder_reverses_finishing`).
-/
import BuildPlan.Proofs.Digraph.FirstCycle

namespace BuildPlan.Digraph

variable {α : Type} [DecidableEq α]

/-! ## §1. The recursion. -/

/-- How far the visits have come. -/
structure Visits (α : Type) where
  /-- The vertices that no visit has marked, in order of discovery. -/
  fresh : List α
  /-- The vertices whose visit is over, the first one first. -/
  finished : List α

namespace Visits

/-- Before the first visit. -/
def start (g : Digraph α) : Visits α := ⟨g.vertices, []⟩

/-- The vertex is not fresh any more. -/
def mark (s : Visits α) (v : α) : Visits α := ⟨s.fresh.filter (· ≠ v), s.finished⟩

/-- The visit of the vertex is over. -/
def finish (s : Visits α) (v : α) : Visits α := ⟨s.fresh, s.finished ++ [v]⟩

/-- The fresh vertices have no repeats, so marking one takes it out. -/
theorem mark_eq_erase {s : Visits α} (hs : s.fresh.Nodup) (v : α) :
    s.mark v = ⟨s.fresh.erase v, s.finished⟩ := by
  have hfilter : s.fresh.filter (· ≠ v) = s.fresh.erase v := by
    rw [hs.erase_eq_filter]
    apply List.filter_congr
    intro w _
    rw [Bool.eq_iff_iff]
    simp
  unfold mark
  rw [hfilter]

theorem length_mark_lt {s : Visits α} {v : α} (hv : v ∈ s.fresh) :
    (s.mark v).fresh.length < s.fresh.length :=
  List.length_filter_lt_length_iff_exists.2 ⟨v, hv, by simp⟩

end Visits

/-- The visits of `visitAll`, with the fact that makes them end: no vertex becomes fresh again. -/
def visitWithin (g : Digraph α) (s : Visits α) :
    List α → { t : Visits α // t.fresh.Sublist s.fresh }
  | [] => ⟨s, .refl _⟩
  | v :: vs =>
    if _ : v ∈ s.fresh then
      let below := visitWithin g (s.mark v) (g.successors v)
      let beside := visitWithin g (below.1.finish v) vs
      ⟨beside.1, beside.2.trans (below.2.trans List.filter_sublist)⟩
    else visitWithin g s vs
termination_by vs => (s.fresh.length, vs.length)
decreasing_by
  · exact Prod.Lex.left _ _ (Visits.length_mark_lt ‹_›)
  · exact Prod.Lex.left _ _ (Nat.lt_of_le_of_lt below.2.length_le (Visits.length_mark_lt ‹_›))
  · exact Prod.Lex.right _ (Nat.lt_succ_self _)

/-- Visits the vertices of a list in turn.  One that is fresh is marked, its successors are visited
in the same way, then it is finished; any other is left alone. -/
def visitAll (g : Digraph α) (s : Visits α) (vs : List α) : Visits α := (visitWithin g s vs).1

/-- The vertices in the order in which the visits of all of them finish. -/
def finishing (g : Digraph α) : List α := (visitAll g (Visits.start g) g.vertices).finished

section

variable {g : Digraph α} {s : Visits α} {v : α} {vs : List α}

@[simp] theorem visitAll_nil : visitAll g s [] = s := by
  unfold visitAll
  rw [visitWithin]

/-- A fresh vertex is marked, what it leads to is visited, and then it is finished. -/
theorem visitAll_cons_of_mem (hv : v ∈ s.fresh) :
    visitAll g s (v :: vs) =
      visitAll g ((visitAll g (s.mark v) (g.successors v)).finish v) vs := by
  unfold visitAll
  rw [visitWithin, dif_pos hv]

theorem visitAll_cons_of_not_mem (hv : v ∉ s.fresh) :
    visitAll g s (v :: vs) = visitAll g s vs := by
  unfold visitAll
  rw [visitWithin, dif_neg hv]

/-- What holds of no visits, of a vertex passed over, and of a vertex entered if it holds of the
visits below it and beside it, holds of all visits. -/
@[elab_as_elim]
theorem visitAll_induction (g : Digraph α) {motive : Visits α → List α → Prop}
    (nil : ∀ s, motive s [])
    (enter : ∀ s v vs, v ∈ s.fresh → motive (s.mark v) (g.successors v) →
      motive ((visitAll g (s.mark v) (g.successors v)).finish v) vs → motive s (v :: vs))
    (pass : ∀ s v vs, v ∉ s.fresh → motive s vs → motive s (v :: vs))
    (s : Visits α) (vs : List α) : motive s vs := by
  fun_induction visitWithin g s vs with
  | case1 s => exact nil s
  | case2 s v vs hv _ _ hbelow hbeside => exact enter s v vs hv hbelow hbeside
  | case3 s v vs hv hrest => exact pass s v vs hv hrest

/-- No visit makes a vertex fresh again. -/
theorem fresh_visitAll_sublist (g : Digraph α) (s : Visits α) (vs : List α) :
    (visitAll g s vs).fresh.Sublist s.fresh :=
  (visitWithin g s vs).2

theorem visitAll_append (g : Digraph α) (s : Visits α) (vs ws : List α) :
    visitAll g s (vs ++ ws) = visitAll g (visitAll g s vs) ws := by
  induction vs generalizing s with
  | nil => rw [visitAll_nil, List.nil_append]
  | cons v vs ih =>
    rw [List.cons_append]
    by_cases hv : v ∈ s.fresh
    · rw [visitAll_cons_of_mem hv, visitAll_cons_of_mem hv, ih]
    · rw [visitAll_cons_of_not_mem hv, visitAll_cons_of_not_mem hv, ih]

/-- A vertex that is not fresh need not be visited. -/
theorem visitAll_erase {w : α} (hw : w ∉ s.fresh) (vs : List α) :
    visitAll g s (vs.erase w) = visitAll g s vs := by
  induction vs generalizing s with
  | nil => rfl
  | cons v vs ih =>
    by_cases hvw : v = w
    · rw [hvw, List.erase_cons_head, visitAll_cons_of_not_mem hw]
    · rw [List.erase_cons_tail (by simpa using hvw)]
      by_cases hv : v ∈ s.fresh
      · rw [visitAll_cons_of_mem hv, visitAll_cons_of_mem hv]
        -- the visit of `v` makes nothing fresh
        apply ih
        intro hw'
        exact hw (List.mem_filter.1 ((fresh_visitAll_sublist g (s.mark v) _).subset hw')).1
      · rw [visitAll_cons_of_not_mem hv, visitAll_cons_of_not_mem hv, ih hw]

end

/-! ## §2. What the recursion makes of a state of the walk. -/

namespace Ordering

/-- Lets the path run out: from its end on, every vertex has its successors not looked at visited
and is finished. -/
def unwind (g : Digraph α) : List (Frame α) → Visits α → Visits α
  | [], s => s
  | f :: below, s => unwind g below ((visitAll g s f.pending).finish f.vertex)

/-- What is finished, the first vertex first, when the path has run out and the vertices that are
fresh have been visited. -/
def outcome (g : Digraph α) (s : Ordering α) : List α :=
  (visitAll g (unwind g s.frames ⟨s.fresh, s.finished.reverse⟩) s.fresh).finished

theorem fresh_unwind_sublist (g : Digraph α) (frames : List (Frame α)) (s : Visits α) :
    (unwind g frames s).fresh.Sublist s.fresh := by
  induction frames generalizing s with
  | nil => exact .refl _
  | cons f below ih => exact (ih _).trans (fresh_visitAll_sublist g s f.pending)

/-- **A move leaves the outcome of the recursion as it is.** -/
theorem Move.outcome_eq {g : Digraph α} {s s' : Ordering α} (hs : Sound g s) (h : Move g s s') :
    outcome g s = outcome g s' := by
  have hnodup := hs.fresh_nodup
  cases h with
  | @start v fresh finished =>
    show (visitAll g ⟨v :: fresh, finished.reverse⟩ (v :: fresh)).finished = _
    rw [visitAll_cons_of_mem List.mem_cons_self, Visits.mark_eq_erase hnodup,
      List.erase_cons_head]
    rfl
  | @finish v fresh finished below =>
    show (visitAll g (unwind g below ((visitAll g ⟨fresh, finished.reverse⟩ []).finish v))
      fresh).finished = (visitAll g (unwind g below ⟨fresh, (v :: finished).reverse⟩) fresh).finished
    rw [visitAll_nil, List.reverse_cons]
    rfl
  | @enter v w ws fresh finished below hw =>
    -- once the path has run out, `w` is not fresh, so it need not be visited again
    have hgone : ∀ frames, w ∉ (unwind g frames ⟨fresh.erase w, finished.reverse⟩).fresh := by
      intro frames hmem
      exact hnodup.not_mem_erase ((fresh_unwind_sublist g frames _).subset hmem)
    show (visitAll g (unwind g below ((visitAll g ⟨fresh, finished.reverse⟩ (w :: ws)).finish v))
      fresh).finished = _
    rw [visitAll_cons_of_mem hw, Visits.mark_eq_erase hnodup]
    exact congrArg Visits.finished
      (visitAll_erase (hgone (⟨w, g.successors w⟩ :: ⟨v, ws⟩ :: below)) fresh).symm
  | @pass v w ws fresh finished below hw hfinished =>
    show (visitAll g (unwind g below ((visitAll g ⟨fresh, finished.reverse⟩ (w :: ws)).finish v))
      fresh).finished = _
    rw [visitAll_cons_of_not_mem hw]
    rfl

/-- At every state of the walk, what is still to come makes up the same finishing order. -/
theorem Reached.outcome_eq {g : Digraph α} {s : Ordering α} (h : Reached g s) :
    outcome g s = g.finishing := by
  induction h with
  | refl => rfl
  | tail hreached hmove ih => rw [← ih, hmove.outcome_eq (Reached.sound hreached)]

end Ordering

/-! ## §3. The law of the build order. -/

/-- A build order is what the recursion has finished, the last vertex first. -/
theorem eq_of_buildOrder {g : Digraph α} {order : List α} (h : g.buildOrder = .ok order) :
    order = g.finishing.reverse := by
  have houtcome := (Ordering.reached_of_buildOrder h).outcome_eq
  -- nothing is left to visit
  have hdone : order.reverse = g.finishing := by
    rw [← houtcome]
    unfold Ordering.outcome Ordering.unwind
    rw [visitAll_nil]
  rw [← hdone, List.reverse_reverse]

/-- Without a cycle, the walk comes to the finishing order, read backwards. -/
theorem buildOrder_eq_ok {g : Digraph α} (h : g.Acyclic) :
    g.buildOrder = .ok g.finishing.reverse := by
  obtain ⟨order, horder⟩ := exists_buildOrder_iff.2 h
  rw [horder, eq_of_buildOrder horder]

/-- **The build order of an acyclic graph is the order in which the recursion finishes the vertices,
read backwards.** -/
theorem buildOrder_reverses_finishing (g : Digraph α) (h : ∀ v, ¬ g.Leads v v) :
    g.buildOrder = .ok (visitAll g (Visits.start g) g.vertices).finished.reverse :=
  buildOrder_eq_ok h

/-- 3 is fresh when 1 is entered and finished when it is looked at from there; 0 and 4 are
discovered behind what they lead to. -/
def detour : Digraph Nat :=
  (((((empty.insertVertex 5).insertEdge 1 2).insertEdge 1 3).insertEdge 2 3).insertEdge 0
    1).insertEdge 4 3

/-- The law at a vertex that is fresh when it is first looked at and finished when it is met again.
-/
theorem buildOrder_reverses_finishing_detour :
    (∀ v, ¬ detour.Leads v v) ∧ detour.buildOrder = .ok [4, 0, 1, 2, 3, 5] ∧
      detour.buildOrder =
        .ok (visitAll detour (Visits.start detour) detour.vertices).finished.reverse := by
  have hacyclic : detour.Acyclic := findCycle_eq_none_iff.1 (by cbv)
  exact ⟨hacyclic, by cbv, buildOrder_reverses_finishing detour hacyclic⟩

end BuildPlan.Digraph
