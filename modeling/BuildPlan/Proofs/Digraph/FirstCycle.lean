/-
  BuildPlan.Proofs.Digraph.FirstCycle
  ───────────────────────────────────
  **THE SEARCH FOR A CYCLE AND THE ORDERING WALK ARE IN STEP.**

  Both are the same depth-first traversal with other books.  A state of the walk
  shows the state of the search (`Ordering.search`), and a step of the one is a step
  of the other (`step_search`).  So the search reports a cycle exactly when the walk
  is blocked, and the same one (`findCycle_eq`).  What holds of the walk then holds of
  the search: it comes back empty exactly on acyclic graphs, and what it reports is a
  cycle without the path that led there (`findCycle_decides`).
-/
import BuildPlan.Digraph.Cycle
import BuildPlan.Proofs.Digraph.BuildOrder

namespace BuildPlan.Digraph

variable {α : Type} [DecidableEq α]

namespace Ordering

/-! ## §1. One step. -/

/-- The search for a cycle that has come as far as the walk. -/
def search (s : Ordering α) : CycleSearch α :=
  ⟨s.fresh, s.path, s.frames.map Frame.pending, s.finished⟩

/-- What a step of the walk comes to for the search. -/
def Step.search : Step α → CycleSearch.Step α
  | .next s => .next s.search
  | .blocked cycle => .closed cycle
  | .complete _ => .exhausted

/-- The search takes each step that the walk takes, and reports where the walk is blocked. -/
theorem step_search (g : Digraph α) (s : Ordering α) :
    CycleSearch.step g s.search = (step g s).search := by
  obtain ⟨fresh, frames, finished⟩ := s
  match frames, fresh with
  | [], [] => rfl
  | [], v :: rest => rfl
  | ⟨v, []⟩ :: below, fresh => rfl
  | ⟨v, w :: ws⟩ :: below, fresh =>
    -- both ask first whether `w` is fresh, and then whether it is finished
    simp only [step, CycleSearch.step, search, List.map_cons]
    by_cases hw : w ∈ fresh
    · rw [if_pos hw, if_pos hw]
      rfl
    · rw [if_neg hw, if_neg hw]
      by_cases hfinished : w ∈ finished
      · rw [if_pos hfinished, if_pos hfinished]
        rfl
      · rw [if_neg hfinished, if_neg hfinished]
        rfl

/-! ## §2. A whole run. -/

theorem searchRun_eq (g : Digraph α) (s : CycleSearch α) :
    CycleSearch.run g s =
      match CycleSearch.step g s with
      | .exhausted => none
      | .closed cycle => some cycle
      | .next s' => CycleSearch.run g s' := by
  rw [CycleSearch.run]
  split <;> rename_i h <;> rw [h]

/-- From corresponding states, the search reports a cycle exactly if the walk is blocked by it. -/
theorem run_search (g : Digraph α) (s : Ordering α) :
    CycleSearch.run g s.search =
      match run g s with
      | .ok _ => none
      | .error cycle => some cycle := by
  fun_induction run g s with
  | case1 s order h =>
    rw [searchRun_eq, step_search, h]
    rfl
  | case2 s cycle h =>
    rw [searchRun_eq, step_search, h]
    rfl
  | case3 s s' h ih =>
    rw [searchRun_eq, step_search, h]
    exact ih

end Ordering

/-- The first cycle found is the one that blocks the ordering walk. -/
theorem findCycle_eq (g : Digraph α) :
    g.findCycle =
      match g.buildOrder with
      | .ok _ => none
      | .error cycle => some cycle :=
  Ordering.run_search g (Ordering.start g)

/-- The search reports the cycle that blocks the walk, and no other. -/
theorem findCycle_eq_some_iff {g : Digraph α} {cycle : List α} :
    g.findCycle = some cycle ↔ g.buildOrder = .error cycle := by
  rw [findCycle_eq]
  cases g.buildOrder with
  | ok order => simp
  | error cycle' => simp

/-- The search reports nothing exactly if the walk comes to an order. -/
theorem findCycle_eq_none_iff_exists {g : Digraph α} :
    g.findCycle = none ↔ ∃ order, g.buildOrder = .ok order := by
  rw [findCycle_eq]
  cases g.buildOrder with
  | ok order => simp
  | error cycle => simp

theorem isCycle_of_findCycle {g : Digraph α} {cycle : List α} (h : g.findCycle = some cycle) :
    g.IsCycle cycle :=
  isCycle_of_buildOrder (findCycle_eq_some_iff.1 h)

/-! ## §3. The law of the search. -/

theorem findCycle_eq_none_iff {g : Digraph α} : g.findCycle = none ↔ g.Acyclic :=
  findCycle_eq_none_iff_exists.trans exists_buildOrder_iff

/-- **The search comes back empty exactly if the graph is acyclic, and otherwise with one cycle:
its ends are equal, it meets no other vertex twice, neighbours are joined by edges, and every vertex
of it leads back to itself.** -/
theorem findCycle_decides (g : Digraph α) :
    (g.findCycle = none ↔ ∀ v, ¬ g.Leads v v) ∧
      ∀ cycle, g.findCycle = some cycle →
        2 ≤ cycle.length ∧ cycle.head? = cycle.getLast? ∧ cycle.dropLast.Nodup ∧
          cycle.IsChain (fun u v => (u, v) ∈ g.edges) ∧ ∀ v ∈ cycle, g.Leads v v := by
  refine ⟨findCycle_eq_none_iff, ?_⟩
  intro cycle h
  have hcycle := isCycle_of_findCycle h
  refine ⟨hcycle.two_le_length, hcycle.head_eq_last, hcycle.nodup, hcycle.linked, ?_⟩
  intro v hv
  exact hcycle.leads_self hv

/-- A dead end 9, a way from 0 into the ring of 1, 2 and 3, and an edge from the ring to the dead
end. -/
def lasso : Digraph Nat :=
  (((((empty.insertEdge 0 9).insertEdge 0 1).insertEdge 1 2).insertEdge 2 9).insertEdge 2 3).insertEdge
    3 1

/-- The law at a ring of three that a way leads into: what is reported is the ring alone. -/
theorem findCycle_decides_lasso :
    lasso.findCycle = some [1, 2, 3, 1] ∧
      (2 ≤ [1, 2, 3, 1].length ∧ [1, 2, 3, 1].head? = [1, 2, 3, 1].getLast? ∧
        [1, 2, 3, 1].dropLast.Nodup ∧ [1, 2, 3, 1].IsChain (fun u v => (u, v) ∈ lasso.edges) ∧
          ∀ v ∈ [1, 2, 3, 1], lasso.Leads v v) := by
  have h : lasso.findCycle = some [1, 2, 3, 1] := by cbv
  exact ⟨h, (findCycle_decides lasso).2 _ h⟩

end BuildPlan.Digraph
