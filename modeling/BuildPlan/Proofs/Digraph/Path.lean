/-
  BuildPlan.Proofs.Digraph.Path
  ─────────────────────────────
  **WHERE EDGES LEAD, AND WHAT AN ORDER OF THE VERTICES SAYS ABOUT IT.**

  A path has one edge or more.  A graph is acyclic when no vertex leads back to
  itself; an edge from a vertex to itself is a cycle.  Two kinds of evidence settle
  the question, and no graph has both:

      IsBuildOrder g order     every vertex once, every edge forward   →  acyclic
      IsCycle g cycle          edge by edge back to its first vertex   →  not acyclic
-/
import BuildPlan.Digraph.Cycle
import BuildPlan.Proofs.Standing
import Mathlib.Data.List.Chain
import Mathlib.Logic.Relation

namespace BuildPlan.Digraph

variable {α : Type}

/-! ## §1. Paths. -/

/-- The graph has an edge from `u` to `v`. -/
def Edge (g : Digraph α) (u v : α) : Prop := (u, v) ∈ g.edges

/-- The graph has a path of one or more edges from `u` to `v`. -/
def Leads (g : Digraph α) : α → α → Prop := Relation.TransGen g.Edge

theorem Leads.source_mem {g : Digraph α} {u v : α} (h : g.Leads u v) : u ∈ g.vertices := by
  obtain ⟨w, huw, -⟩ := Relation.TransGen.head'_iff.1 h
  exact g.source_mem _ huw

theorem Leads.target_mem {g : Digraph α} {u v : α} (h : g.Leads u v) : v ∈ g.vertices := by
  obtain ⟨w, -, hwv⟩ := Relation.TransGen.tail'_iff.1 h
  exact g.target_mem _ hwv

/-- No vertex leads back to itself. -/
def Acyclic (g : Digraph α) : Prop := ∀ v, ¬ g.Leads v v

/-! ## §2. Orders that follow every edge. -/

/-- Every vertex stands in the order once, and every edge leads forward in it. -/
structure IsBuildOrder (g : Digraph α) (order : List α) : Prop where
  /-- No vertex is repeated. -/
  nodup : order.Nodup
  /-- The members are the vertices. -/
  mem_iff : ∀ v, v ∈ order ↔ v ∈ g.vertices
  /-- The start of an edge stands before its end. -/
  forward : ∀ u v, g.Edge u v → StandsBefore order u v

namespace IsBuildOrder

variable {g : Digraph α} {order : List α}

/-- A build order respects every path, not only the edges. -/
theorem standsBefore_of_leads (h : g.IsBuildOrder order) {u v : α} (huv : g.Leads u v) :
    StandsBefore order u v := by
  induction huv with
  | single he => exact h.forward _ _ he
  | tail _ he ih => exact ih.trans h.nodup (h.forward _ _ he)

/-- A graph with a build order has no cycle. -/
theorem acyclic (h : g.IsBuildOrder order) : g.Acyclic := by
  intro v hv
  exact not_standsBefore_self h.nodup v (h.standsBefore_of_leads hv)

end IsBuildOrder

/-! ## §3. Cycles. -/

/-- A walk along edges that ends where it starts and meets no other vertex twice. -/
structure IsCycle (g : Digraph α) (cycle : List α) : Prop where
  /-- There is at least one edge. -/
  two_le_length : 2 ≤ cycle.length
  /-- The last vertex is the first one. -/
  head_eq_last : cycle.head? = cycle.getLast?
  /-- Before the last one, no vertex is repeated. -/
  nodup : cycle.dropLast.Nodup
  /-- Neighbours in the list are joined by an edge. -/
  linked : cycle.IsChain g.Edge

/-- A cycle is some vertices between two occurrences of one vertex. -/
theorem IsCycle.exists_eq {g : Digraph α} {cycle : List α} (h : g.IsCycle cycle) :
    ∃ u mid, cycle = u :: (mid ++ [u]) := by
  obtain ⟨hlen, hends, -, -⟩ := h
  match cycle with
  | [] => simp at hlen
  | [_] => simp at hlen
  | u :: v :: rest =>
    have hlast : (v :: rest).getLast (by simp) = u := by
      rw [List.head?_cons, List.getLast?_cons_cons,
        List.getLast?_eq_some_getLast (List.cons_ne_nil v rest)] at hends
      injection hends with hends
      exact hends.symm
    have hsplit := List.dropLast_append_getLast (List.cons_ne_nil v rest)
    rw [hlast] at hsplit
    exact ⟨u, (v :: rest).dropLast, by rw [hsplit]⟩

/-- Every vertex of a cycle leads back to itself. -/
theorem IsCycle.leads_self {g : Digraph α} {cycle : List α} (h : g.IsCycle cycle) {v : α}
    (hv : v ∈ cycle) : g.Leads v v := by
  obtain ⟨u, mid, rfl⟩ := h.exists_eq
  -- along the list, every vertex leads to all behind it
  have hleads : (u :: (mid ++ [u])).Pairwise (Relation.TransGen g.Edge) :=
    (h.linked.imp fun _ _ huv => Relation.TransGen.single huv).pairwise
  obtain ⟨hhead, hrest⟩ := List.pairwise_cons.1 hleads
  obtain ⟨-, -, hlast⟩ := List.pairwise_append.1 hrest
  have hu : g.Leads u u := hhead u (by simp)
  rcases List.mem_cons.1 hv with rfl | hv
  · exact hu
  · rcases List.mem_append.1 hv with hv | hv
    · -- from `v` on to the end, and from the start to `v`
      have hback : g.Leads u v := hhead v (List.mem_append_left _ hv)
      exact Relation.TransGen.trans (hlast v hv u (by simp)) hback
    · rw [List.mem_singleton.1 hv]
      exact hu

theorem IsCycle.not_acyclic {g : Digraph α} {cycle : List α} (h : g.IsCycle cycle) :
    ¬ g.Acyclic := by
  intro hacyclic
  obtain ⟨u, mid, rfl⟩ := h.exists_eq
  exact hacyclic u (h.leads_self List.mem_cons_self)

/-! ## §4. The cycle that an edge back into the path closes. -/

variable [DecidableEq α]

/-- The cycle is what the path has from `w` on, and `w` again. -/
theorem closing_append_cons {front tail : List α} {w : α} (hfront : w ∉ front) :
    CycleSearch.closing w (front ++ w :: tail) = w :: (front.reverse ++ [w]) := by
  have htake : (front ++ w :: tail).takeWhile (· ≠ w) = front := by
    rw [List.takeWhile_append_of_pos]
    · simp
    · intro v hv
      have hne : v ≠ w := fun h => hfront (h ▸ hv)
      simpa using hne
  unfold CycleSearch.closing
  rw [htake]

/-- A path, read from its end, whose end has an edge to the member `w`: the part from `w` on and
`w` again are a cycle. -/
theorem isCycle_closing {g : Digraph α} {path : List α} {w : α}
    (hlinked : (w :: path).IsChain fun v u => g.Edge u v) (hnodup : path.Nodup) (hw : w ∈ path) :
    g.IsCycle (CycleSearch.closing w path) := by
  -- `front` is what the path has after `w`, read from its end
  obtain ⟨front, tail, rfl, hfront⟩ := List.eq_append_cons_of_mem hw
  have hclosing : CycleSearch.closing w (front ++ w :: tail) = (w :: front.reverse) ++ [w] :=
    closing_append_cons hfront
  rw [hclosing]
  constructor
  · simp
  · rw [List.getLast?_concat]
    rfl
  · rw [List.dropLast_concat, List.nodup_cons, List.mem_reverse, List.nodup_reverse]
    exact ⟨hfront, (List.nodup_append.1 hnodup).1⟩
  · -- read backwards, the cycle is the front of the path with `w` at its head
    have hreverse : (w :: front.reverse) ++ [w] = (w :: front ++ [w]).reverse := by simp
    rw [hreverse, List.isChain_reverse]
    exact hlinked.prefix ⟨tail, by simp⟩

end BuildPlan.Digraph
