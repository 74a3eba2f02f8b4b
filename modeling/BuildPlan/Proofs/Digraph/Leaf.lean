/-
  BuildPlan.Proofs.Digraph.Leaf
  ─────────────────────────────
  **A LEAF CAN BE TAKEN OUT OF A GRAPH WITHOUT MOVING THE OTHER VERTICES.**

  A leaf is a vertex without successors.  The same visits are made with it and without
  it: where they come to the leaf, it is marked and finished at once, which only the
  leaf can tell; everywhere else they do the same (`visitAll_without`).  So the build
  orders of the two graphs differ by the leaf alone (`buildOrder_without`), wherever it
  stands among the vertices and the successors of others.
-/
import BuildPlan.Proofs.Digraph.Visit

namespace BuildPlan.Digraph

variable {α : Type} [DecidableEq α]

/-! ## §1. A graph without one of its vertices. -/

/-- The graph without the vertex and the edges at it; what is left keeps its order. -/
def without (g : Digraph α) (leaf : α) : Digraph α where
  vertices := g.vertices.filter (· ≠ leaf)
  edges := g.edges.filter fun e => e.1 ≠ leaf ∧ e.2 ≠ leaf
  vertices_nodup := g.vertices_nodup.filter _
  edges_nodup := g.edges_nodup.filter _
  source_mem := by
    intro e he
    simp only [List.mem_filter, decide_eq_true_eq] at he ⊢
    exact ⟨g.source_mem e he.1, he.2.1⟩
  target_mem := by
    intro e he
    simp only [List.mem_filter, decide_eq_true_eq] at he ⊢
    exact ⟨g.target_mem e he.1, he.2.2⟩

section

variable {g : Digraph α} {leaf : α}

theorem edge_without {u v : α} :
    (g.without leaf).Edge u v ↔ g.Edge u v ∧ u ≠ leaf ∧ v ≠ leaf := by
  simp [Edge, without]

/-- Without the leaf, the successors of the others stay in order. -/
theorem successors_without {u : α} (hu : u ≠ leaf) :
    (g.without leaf).successors u = (g.successors u).filter (· ≠ leaf) := by
  simp only [successors, without, List.filter_map, List.filter_filter]
  congr 1
  apply List.filter_congr
  intro e _
  by_cases he : e.1 = u
  · simp [he, hu]
  · simp [he]

theorem source_ne_leaf (hleaf : g.successors leaf = []) {u v : α} (h : g.Edge u v) :
    u ≠ leaf := by
  rintro rfl
  have hv : v ∈ g.successors u := mem_successors.2 h
  exact List.ne_nil_of_mem hv hleaf

/-- No path goes through a leaf. -/
theorem Leads.without (hleaf : g.successors leaf = []) {u v : α} (h : g.Leads u v)
    (hv : v ≠ leaf) : (g.without leaf).Leads u v := by
  induction h with
  | single he => exact .single (edge_without.2 ⟨he, source_ne_leaf hleaf he, hv⟩)
  | tail _ he ih =>
    have hmid := source_ne_leaf hleaf he
    exact (ih hmid).tail (edge_without.2 ⟨he, hmid, hv⟩)

/-- The leaf closes no cycle. -/
theorem acyclic_of_without (hleaf : g.successors leaf = []) (h : (g.without leaf).Acyclic) :
    g.Acyclic := by
  intro v hv
  -- a cycle goes on from each of its vertices, so none of them is the leaf
  obtain ⟨w, hvw, -⟩ := Relation.TransGen.head'_iff.1 hv
  exact h v (hv.without hleaf (source_ne_leaf hleaf hvw))

end

/-! ## §2. The visits with the leaf and without it. -/

namespace Visits

/-- The same visits, the leaf never mentioned. -/
def without (s : Visits α) (leaf : α) : Visits α :=
  ⟨s.fresh.filter (· ≠ leaf), s.finished.filter (· ≠ leaf)⟩

variable {s : Visits α} {v leaf : α}

theorem mem_fresh_without (hv : v ≠ leaf) : v ∈ (s.without leaf).fresh ↔ v ∈ s.fresh := by
  simp [without, hv]

theorem without_mark : (s.mark v).without leaf = (s.without leaf).mark v := by
  simp only [without, mark, List.filter_filter, Bool.and_comm]

theorem without_finish (hv : v ≠ leaf) :
    (s.finish v).without leaf = (s.without leaf).finish v := by
  simp [without, finish, hv]

/-- To mark and to finish the leaf is nothing to the others. -/
theorem without_mark_finish_self : ((s.mark v).finish v).without v = s.without v := by
  simp [without, mark, finish, List.filter_filter]

end Visits

/-- **Visits with the leaf and without it do the same to all other vertices.** -/
theorem visitAll_without {g : Digraph α} {leaf : α} (hleaf : g.successors leaf = [])
    (s : Visits α) (vs : List α) :
    visitAll (g.without leaf) (s.without leaf) (vs.filter (· ≠ leaf)) =
      (visitAll g s vs).without leaf := by
  induction s, vs using visitAll_induction g with
  | nil s => rw [List.filter_nil, visitAll_nil, visitAll_nil]
  | enter s v vs hv hbelow hbeside =>
    rw [visitAll_cons_of_mem hv, ← hbeside]
    by_cases hvleaf : v = leaf
    · subst hvleaf
      rw [hleaf, visitAll_nil, Visits.without_mark_finish_self,
        List.filter_cons_of_neg (by simp)]
    · rw [List.filter_cons_of_pos (by simpa using hvleaf),
        visitAll_cons_of_mem ((Visits.mem_fresh_without hvleaf).2 hv),
        successors_without hvleaf, ← Visits.without_mark, hbelow, Visits.without_finish hvleaf]
  | pass s v vs hv hrest =>
    rw [visitAll_cons_of_not_mem hv, ← hrest]
    by_cases hvleaf : v = leaf
    · rw [List.filter_cons_of_neg (by simpa using hvleaf)]
    · rw [List.filter_cons_of_pos (by simpa using hvleaf),
        visitAll_cons_of_not_mem fun h => hv ((Visits.mem_fresh_without hvleaf).1 h)]

/-- Without the leaf, the other vertices are finished in the same order. -/
theorem finishing_without {g : Digraph α} {leaf : α} (hleaf : g.successors leaf = []) :
    (g.without leaf).finishing = g.finishing.filter (· ≠ leaf) :=
  congrArg Visits.finished (visitAll_without hleaf (Visits.start g) g.vertices)

/-! ## §3. The build order with the leaf and without it. -/

/-- The build order without the leaf is the one with it, the leaf taken out. -/
theorem buildOrder_without {g : Digraph α} {leaf : α} (hleaf : g.successors leaf = [])
    (h : (g.without leaf).Acyclic) :
    ∃ order, g.buildOrder = .ok order ∧
      (g.without leaf).buildOrder = .ok (order.filter (· ≠ leaf)) := by
  refine ⟨_, buildOrder_eq_ok (acyclic_of_without hleaf h), ?_⟩
  rw [buildOrder_eq_ok h, finishing_without hleaf, List.filter_reverse]

end BuildPlan.Digraph
