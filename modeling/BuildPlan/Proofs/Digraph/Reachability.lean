/-
  BuildPlan.Proofs.Digraph.Reachability
  ─────────────────────────────────────
  **THE CLOSURE OF A SET OF VERTICES IS WHAT PATHS REACH.**

  `spread` walks from a stack of vertices and hands out fresh vertices only.  What
  it hands out is reached by a path (`exists_of_mem_spread`), and a fresh neighbour
  of the stack or of anything handed out is handed out as well (`mem_spread_of_next`).
  With all vertices fresh at the start, the two meet: the ancestors of some vertices
  are what leads to one of them, the descendants what one of them leads to.
-/
import BuildPlan.Digraph.Reach
import BuildPlan.Proofs.Digraph.Path

namespace BuildPlan.Digraph

variable {α : Type} [DecidableEq α]

/-! ## §1. The walk over a stack. -/

@[simp] theorem mem_among {ws l : List α} {a : α} : a ∈ among ws l ↔ a ∈ l ∧ a ∈ ws := by
  simp [among]

@[simp] theorem mem_notAmong {ws l : List α} {a : α} : a ∈ notAmong ws l ↔ a ∈ l ∧ a ∉ ws := by
  simp [notAmong]

/-- What the search finds is at the end of a walk from the stack. -/
theorem exists_of_mem_spread {next : α → List α} {fresh stack : List α} {w : α}
    (h : w ∈ spread next fresh stack) :
    ∃ s ∈ stack, Relation.TransGen (fun a b => b ∈ next a) s w := by
  fun_induction spread next fresh stack with
  | case1 => exact absurd h (by simp)
  | case2 fresh v stack ih =>
    -- `w` is a neighbour of `v`, or found from the neighbours of `v` and the rest of the stack
    rcases List.mem_append.1 h with hw | hw
    · exact ⟨v, List.mem_cons_self, .single (mem_among.1 hw).2⟩
    · obtain ⟨s, hs, hsw⟩ := ih hw
      rcases List.mem_append.1 hs with hs | hs
      · exact ⟨v, List.mem_cons_self, .head (mem_among.1 hs).2 hsw⟩
      · exact ⟨s, List.mem_cons_of_mem v hs, hsw⟩

/-- A fresh neighbour of a vertex that is on the stack or handed out is handed out. -/
theorem mem_spread_of_next {next : α → List α} {fresh stack : List α} {a b : α}
    (ha : a ∈ stack ∨ a ∈ spread next fresh stack) (hab : b ∈ next a) (hb : b ∈ fresh) :
    b ∈ spread next fresh stack := by
  fun_induction spread next fresh stack with
  | case1 => exact absurd ha (by simp)
  | case2 fresh v stack ih =>
    apply List.mem_append.2
    by_cases hv : b ∈ next v
    · exact .inl (mem_among.2 ⟨hb, hv⟩)
    · -- `a` is not `v`, so it is found in the rest of the walk
      right
      refine ih ?_ (mem_notAmong.2 ⟨hb, hv⟩)
      rcases ha with ha | ha
      · have hav : a ≠ v := fun h => hv (h ▸ hab)
        exact .inl (List.mem_append_right _ ((List.mem_cons.1 ha).resolve_left hav))
      · rcases List.mem_append.1 ha with ha | ha
        · exact .inl (List.mem_append_left _ ha)
        · exact .inr ha

/-- Once every neighbour is among the fresh vertices, the walk finds what paths reach. -/
theorem mem_spread_iff {next : α → List α} {fresh stack : List α} {w : α}
    (hfresh : ∀ a b, b ∈ next a → b ∈ fresh) :
    w ∈ spread next fresh stack ↔
      ∃ s ∈ stack, Relation.TransGen (fun a b => b ∈ next a) s w := by
  refine ⟨exists_of_mem_spread, ?_⟩
  intro hreach
  obtain ⟨s, hs, hsw⟩ := hreach
  -- along the path: its first edge leaves the stack, the others leave what is handed out
  induction hsw with
  | single h => exact mem_spread_of_next (.inl hs) h (hfresh _ _ h)
  | tail _ h ih => exact mem_spread_of_next (.inr ih) h (hfresh _ _ h)

theorem mem_of_mem_spread {next : α → List α} {fresh stack : List α} {w : α}
    (h : w ∈ spread next fresh stack) : w ∈ fresh := by
  fun_induction spread next fresh stack with
  | case1 => exact absurd h (by simp)
  | case2 fresh v stack ih =>
    rcases List.mem_append.1 h with hw | hw
    · exact (mem_among.1 hw).1
    · exact (mem_notAmong.1 (ih hw)).1

/-- No vertex is handed out twice. -/
theorem nodup_spread {next : α → List α} {fresh stack : List α} (hfresh : fresh.Nodup) :
    (spread next fresh stack).Nodup := by
  fun_induction spread next fresh stack with
  | case1 => exact List.nodup_nil
  | case2 fresh v stack ih =>
    refine List.nodup_append'.2 ⟨hfresh.filter _, ih (hfresh.filter _), ?_⟩
    -- what is handed out later is not among the neighbours of `v`
    intro w hw hlater
    exact (mem_notAmong.1 (mem_of_mem_spread hlater)).2 (mem_among.1 hw).2

/-! ## §2. Ancestors and descendants. -/

/-- The answer is that of a starting point that is no vertex, if there is one. -/
theorem exists_closure_eq_error_iff {g : Digraph α} {next : α → List α} {starts : List α} :
    (∃ v, g.closure next starts = .error v) ↔ ∃ s ∈ starts, s ∉ g.vertices := by
  unfold closure
  cases hfind : starts.reverse.find? (· ∉ g.vertices) with
  | some v =>
    have hout : v ∉ g.vertices := by simpa using List.find?_some hfind
    have hv : v ∈ starts := List.mem_reverse.1 (List.mem_of_find?_eq_some hfind)
    exact ⟨fun _ => ⟨v, hv, hout⟩, fun _ => ⟨v, rfl⟩⟩
  | none =>
    rw [find?_not_eq_none_iff] at hfind
    refine ⟨fun ⟨v, hv⟩ => absurd hv (by simp), ?_⟩
    rintro ⟨s, hs, hout⟩
    exact absurd (hfind s (List.mem_reverse.2 hs)) hout

/-- If all starting points are vertices, no look-up fails and the search sets out from them. -/
theorem closure_eq_ok {g : Digraph α} {next : α → List α} {starts : List α}
    (h : ∀ s ∈ starts, s ∈ g.vertices) :
    g.closure next starts = .ok (spread next g.vertices starts.reverse) := by
  have hfind : starts.reverse.find? (· ∉ g.vertices) = none := by
    rw [find?_not_eq_none_iff]
    intro s hs
    exact h s (List.mem_reverse.1 hs)
  unfold closure
  rw [hfind]

theorem mem_vertices_of_mem_predecessors {g : Digraph α} (v u : α) (h : u ∈ g.predecessors v) :
    u ∈ g.vertices :=
  g.source_mem _ (mem_predecessors.1 h)

theorem mem_vertices_of_mem_successors {g : Digraph α} (u v : α) (h : v ∈ g.successors u) :
    v ∈ g.vertices :=
  g.target_mem _ (mem_successors.1 h)

/-- From a vertex to its predecessors: the walk goes against the edges. -/
theorem transGen_predecessors (g : Digraph α) :
    (Relation.TransGen fun a b => b ∈ g.predecessors a) = fun s u => g.Leads u s := by
  have hswap : (fun a b => b ∈ g.predecessors a) = Function.swap g.Edge := by
    funext a b
    exact propext mem_predecessors
  funext s u
  rw [hswap, Relation.transGen_swap]
  rfl

/-- A walk along successors is a path of the graph. -/
theorem transGen_successors (g : Digraph α) :
    (Relation.TransGen fun a b => b ∈ g.successors a) = g.Leads := by
  have hedge : (fun a b => b ∈ g.successors a) = g.Edge := by
    funext a b
    exact propext mem_successors
  rw [hedge]
  rfl

/-- The ancestors of some vertices are the vertices that lead to one of them. -/
theorem exists_ancestors {g : Digraph α} {starts : List α} (h : ∀ s ∈ starts, s ∈ g.vertices) :
    ∃ found, g.ancestors starts = .ok found ∧ ∀ u, u ∈ found ↔ ∃ s ∈ starts, g.Leads u s := by
  refine ⟨_, closure_eq_ok h, ?_⟩
  intro u
  rw [mem_spread_iff mem_vertices_of_mem_predecessors, transGen_predecessors]
  simp only [List.mem_reverse]

/-- Along successors, the search finds what a path from the stack leads to. -/
theorem mem_spread_successors_iff {g : Digraph α} {stack : List α} {v : α} :
    v ∈ spread g.successors g.vertices stack ↔ ∃ s ∈ stack, g.Leads s v := by
  rw [mem_spread_iff mem_vertices_of_mem_successors, transGen_successors]

/-- The descendants of some vertices are the vertices that one of them leads to. -/
theorem exists_descendants {g : Digraph α} {starts : List α} (h : ∀ s ∈ starts, s ∈ g.vertices) :
    ∃ found, g.descendants starts = .ok found ∧ ∀ v, v ∈ found ↔ ∃ s ∈ starts, g.Leads s v := by
  refine ⟨_, closure_eq_ok h, ?_⟩
  intro v
  rw [mem_spread_successors_iff]
  simp only [List.mem_reverse]

/-- Whether there is a path can be found out. -/
instance (g : Digraph α) (u v : α) : Decidable (g.Leads u v) :=
  decidable_of_iff (v ∈ spread g.successors g.vertices [u]) (by simp [mem_spread_successors_iff])

end BuildPlan.Digraph
