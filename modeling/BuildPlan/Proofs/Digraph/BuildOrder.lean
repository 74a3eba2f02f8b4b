/-
  BuildPlan.Proofs.Digraph.BuildOrder
  ───────────────────────────────────
  **WHEN THERE IS A BUILD ORDER, AND WHAT IT IS.**

  Whatever the walk answers is evidence.  A finished walk hands over a build order
  (`isBuildOrder_of_buildOrder`), a blocked one a cycle (`isCycle_of_buildOrder`),
  and a graph has only one of these.  So the walk finishes exactly on acyclic graphs
  (`exists_buildOrder_iff`).
-/
import BuildPlan.Proofs.Digraph.Walk
import Mathlib.Data.List.Permutation

namespace BuildPlan.Digraph

variable {α : Type} [DecidableEq α]

/-! ## §1. The two answers of the walk. -/

/-- In a list that is closed under successors, edges lead forward. -/
theorem Ordering.Closed.standsBefore {g : Digraph α} {l : List α} {u v : α}
    (h : Ordering.Closed g l) (hu : u ∈ l) (huv : g.Edge u v) : StandsBefore l u v := by
  induction l with
  | nil => exact absurd hu (by simp)
  | cons a l ih =>
    obtain ⟨ha, hl⟩ := h
    by_cases hua : u = a
    · subst hua
      exact standsBefore_cons (ha v (mem_successors.2 huv))
    · exact (ih hl ((List.mem_cons.1 hu).resolve_left hua)).cons a

/-- What the walk finishes, it finishes in a building order. -/
theorem isBuildOrder_of_buildOrder {g : Digraph α} {order : List α}
    (h : g.buildOrder = .ok order) : g.IsBuildOrder order := by
  have hs := (Ordering.reached_of_buildOrder h).sound
  -- nothing is fresh and nothing on the path, so all vertices are finished
  have hperm : order.Perm g.vertices := hs.places
  have hclosed : Ordering.Closed g order := hs.closed
  constructor
  · exact hperm.nodup_iff.2 g.vertices_nodup
  · intro v
    exact hperm.mem_iff
  · intro u v huv
    exact hclosed.standsBefore (hperm.mem_iff.2 (g.source_mem _ huv)) huv

/-- What blocks the walk is a cycle. -/
theorem isCycle_of_buildOrder {g : Digraph α} {cycle : List α}
    (h : g.buildOrder = .error cycle) : g.IsCycle cycle := by
  obtain ⟨t, ht, hstep⟩ := Ordering.exists_blocked_of_buildOrder h
  have hs := ht.sound
  obtain ⟨v, w, ws, below, hframes, hfresh, hfinished, rfl⟩ :=
    Ordering.exists_of_step_eq_blocked hstep
  have hsettled := hs.settled
  rw [hframes] at hsettled
  have hpath : t.path = v :: below.map Frame.vertex := by
    unfold Ordering.path
    rw [hframes]
    rfl
  have hlinked : (w :: t.path).IsChain fun v u => g.Edge u v := by
    have hbelow := hs.linked
    rw [hpath] at hbelow ⊢
    exact List.isChain_cons_cons.2 ⟨hsettled.edge, hbelow⟩
  have hw : w ∈ t.path := hs.mem_path (g.target_mem _ hsettled.edge) hfresh hfinished
  exact isCycle_closing hlinked hs.path_nodup hw

/-! ## §2. The law of the build order. -/

/-- There is a build order exactly if the graph has no cycle. -/
theorem exists_buildOrder_iff {g : Digraph α} :
    (∃ order, g.buildOrder = .ok order) ↔ g.Acyclic := by
  constructor
  · intro hsome
    obtain ⟨order, h⟩ := hsome
    exact (isBuildOrder_of_buildOrder h).acyclic
  · intro hacyclic
    cases h : g.buildOrder with
    | ok order => exact ⟨order, rfl⟩
    | error cycle => exact absurd hacyclic (isCycle_of_buildOrder h).not_acyclic

/-- **A graph has a computed build order exactly if it is acyclic; every vertex then stands in the
order once, nothing else does, and every edge leads forward.** -/
theorem buildOrder_sorts (g : Digraph α) :
    ((∃ order, g.buildOrder = .ok order) ↔ ∀ v, ¬ g.Leads v v) ∧
      ∀ order, g.buildOrder = .ok order →
        order.Nodup ∧ (∀ v, v ∈ order ↔ v ∈ g.vertices) ∧
          ∀ u v, (u, v) ∈ g.edges → StandsBefore order u v := by
  refine ⟨exists_buildOrder_iff, ?_⟩
  intro order h
  obtain ⟨hnodup, hmem, hforward⟩ := isBuildOrder_of_buildOrder h
  exact ⟨hnodup, hmem, hforward⟩

/-- Two ways from 0 to 2, an edge added twice and a vertex apart. -/
def shortcut : Digraph Nat :=
  ((((empty.insertVertex 3).insertEdge 1 2).insertEdge 0 1).insertEdge 0 2).insertEdge 0 1

/-- The law at two ways from one vertex to another, an edge that is added twice and a vertex apart.
-/
theorem buildOrder_sorts_shortcut :
    shortcut.buildOrder = .ok [0, 1, 2, 3] ∧
      ([0, 1, 2, 3].Nodup ∧ (∀ v, v ∈ [0, 1, 2, 3] ↔ v ∈ shortcut.vertices) ∧
        ∀ u v, (u, v) ∈ shortcut.edges → StandsBefore [0, 1, 2, 3] u v) := by
  have h : shortcut.buildOrder = .ok [0, 1, 2, 3] := by cbv
  exact ⟨h, (buildOrder_sorts shortcut).2 _ h⟩

end BuildPlan.Digraph
