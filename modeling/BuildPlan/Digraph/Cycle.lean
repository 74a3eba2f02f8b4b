/-
  BuildPlan.Digraph.Cycle
  ───────────────────────
  **THE FIRST CYCLE OF A GRAPH.**

  A depth-first search from each vertex in order of discovery.  A vertex is fresh
  until the search reaches it, then on the path, and done when all its successors
  are.  A successor that is neither fresh nor done is on the path, and the edge to
  it closes a cycle:

      path      … → w → … → v          the successor w of v is on the path
      cycle            w → … → v → w    the part from w on, and w again

  Every step uses up a fresh vertex or a successor not looked at, so the search
  ends (`next_decreases`).
-/
import BuildPlan.Digraph.Basic

namespace BuildPlan.Digraph

variable {α : Type} [DecidableEq α]

/-! ## §1. The state of the search. -/

/-- How far a search for a cycle has come. -/
structure CycleSearch (α : Type) where
  /-- The vertices not reached, in order of discovery. -/
  fresh : List α
  /-- The path from the start to the current vertex, the current vertex first. -/
  path : List α
  /-- For each vertex of the path, its successors not looked at. -/
  pending : List (List α)
  /-- The vertices whose successors are all done. -/
  done : List α

/-- What one step of the search comes to. -/
inductive CycleSearch.Step (α : Type) where
  | next (s : CycleSearch α)
  /-- A cycle is closed; its first vertex is repeated at the end. -/
  | closed (cycle : List α)
  /-- Every vertex is done. -/
  | exhausted

namespace CycleSearch

/-- The search before its first step. -/
def start (g : Digraph α) : CycleSearch α := ⟨g.vertices, [], [], []⟩

/-- The cycle that an edge from the current vertex back to `w` closes. -/
def closing (w : α) (path : List α) : List α :=
  w :: ((path.takeWhile (· ≠ w)).reverse ++ [w])

/-- One step: start at a fresh vertex, leave a vertex whose successors are all looked at, or look
at the next successor. -/
def step (g : Digraph α) (s : CycleSearch α) : Step α :=
  match s.pending with
  | [] =>
    match s.fresh with
    | [] => .exhausted
    | v :: rest => .next ⟨rest, [v], [g.successors v], s.done⟩
  | [] :: more => .next ⟨s.fresh, s.path.drop 1, more, s.path.take 1 ++ s.done⟩
  | (w :: ws) :: more =>
    if w ∈ s.fresh then
      .next ⟨s.fresh.erase w, w :: s.path, g.successors w :: ws :: more, s.done⟩
    else if w ∈ s.done then .next ⟨s.fresh, s.path, ws :: more, s.done⟩
    else .closed (closing w s.path)

/-! ## §2. The search ends. -/

/-- How much there is left to look at on the path. -/
def weight (pending : List (List α)) : Nat := pending.flatten.length + pending.length

/-- A step takes a fresh vertex or leaves less to look at on the path, so the search ends. -/
theorem next_decreases {g : Digraph α} {s s' : CycleSearch α} (h : step g s = .next s') :
    Prod.Lex (· < ·) (· < ·) (s'.fresh.length, weight s'.pending)
      (s.fresh.length, weight s.pending) := by
  obtain ⟨fresh, path, pending, done⟩ := s
  unfold step at h
  split at h
  · split at h
    · exact absurd h (by simp)
    · cases h
      exact Prod.Lex.left _ _ (by simp_all)
  · cases h
    rename_i more hp
    simp only at hp
    subst hp
    exact Prod.Lex.right _ (by simp [weight])
  · rename_i w ws more hp
    simp only at hp h
    subst hp
    split at h
    · rename_i hw
      cases h
      have hlen := List.length_erase_of_mem hw
      have hpos := List.length_pos_of_mem hw
      exact Prod.Lex.left _ _ (by simp only; omega)
    · split at h
      · cases h
        exact Prod.Lex.right _ (by simp [weight])
      · exact absurd h (by simp)

/-- The cycle that the search comes upon first, if it comes upon one. -/
def run (g : Digraph α) (s : CycleSearch α) : Option (List α) :=
  match _ : step g s with
  | .exhausted => none
  | .closed cycle => some cycle
  | .next s' => run g s'
termination_by (s.fresh.length, weight s.pending)
decreasing_by exact next_decreases ‹_›

end CycleSearch

/-- The first cycle of the graph, its first vertex repeated at the end; nothing if there is
none. -/
def findCycle (g : Digraph α) : Option (List α) := CycleSearch.run g (CycleSearch.start g)

end BuildPlan.Digraph
