/-
  BuildPlan.Digraph.Order
  ───────────────────────
  **AN ORDER THAT FOLLOWS EVERY EDGE.**

  A depth-first walk that keeps the vertices it has finished.  A vertex is finished
  when all its successors are, and is then put in front of them, so the finished
  vertices stand in building order at any time.  A successor that is neither fresh
  nor finished is on the path, and then there is no such order.  Vertices that
  nothing orders come out in reverse order of discovery: of the vertices z, m, a
  without edges the order is a, m, z.
-/
import BuildPlan.Digraph.Basic

namespace BuildPlan.Digraph

variable {α : Type} [DecidableEq α]

/-! ## §1. The state of the walk. -/

/-- A vertex on the current path. -/
structure Frame (α : Type) where
  vertex : α
  /-- Its successors not looked at. -/
  pending : List α

/-- How far the ordering of a graph has come. -/
structure Ordering (α : Type) where
  /-- The vertices not reached, in order of discovery. -/
  fresh : List α
  /-- The current path, its end first. -/
  frames : List (Frame α)
  /-- The finished vertices, in building order. -/
  finished : List α

/-- What one step of the walk comes to. -/
inductive Ordering.Step (α : Type) where
  | next (s : Ordering α)
  /-- The path has come back to itself; the first vertex of the cycle is repeated at the end. -/
  | blocked (cycle : List α)
  | complete (order : List α)

namespace Ordering

/-- The walk before its first step. -/
def start (g : Digraph α) : Ordering α := ⟨g.vertices, [], []⟩

/-- The vertices of the current path, its end first. -/
def path (s : Ordering α) : List α := s.frames.map Frame.vertex

/-- One step: enter a fresh vertex, finish a vertex, or look at the next successor. -/
def step (g : Digraph α) (s : Ordering α) : Step α :=
  match s.frames with
  | [] =>
    match s.fresh with
    | [] => .complete s.finished
    | v :: rest => .next ⟨rest, [⟨v, g.successors v⟩], s.finished⟩
  | ⟨v, []⟩ :: below => .next ⟨s.fresh, below, v :: s.finished⟩
  | ⟨v, w :: ws⟩ :: below =>
    if w ∈ s.fresh then
      .next ⟨s.fresh.erase w, ⟨w, g.successors w⟩ :: ⟨v, ws⟩ :: below, s.finished⟩
    else if w ∈ s.finished then .next ⟨s.fresh, ⟨v, ws⟩ :: below, s.finished⟩
    else .blocked (w :: ((s.path.takeWhile (· ≠ w)).reverse ++ [w]))

/-! ## §2. The walk ends. -/

/-- How much there is left to look at on the path. -/
def load (frames : List (Frame α)) : Nat := (frames.flatMap Frame.pending).length + frames.length

/-- A step takes a fresh vertex or leaves less to look at on the path, so the walk ends. -/
theorem step_decreases {g : Digraph α} {s s' : Ordering α} (h : step g s = .next s') :
    Prod.Lex (· < ·) (· < ·) (s'.fresh.length, load s'.frames)
      (s.fresh.length, load s.frames) := by
  obtain ⟨fresh, frames, finished⟩ := s
  unfold step at h
  split at h
  · split at h
    · exact absurd h (by simp)
    · cases h
      exact Prod.Lex.left _ _ (by simp_all)
  · cases h
    rename_i v below hf
    simp only at hf
    subst hf
    exact Prod.Lex.right _ (by simp [load])
  · rename_i v w ws below hf
    simp only at hf h
    subst hf
    split at h
    · rename_i hw
      cases h
      have hlen := List.length_erase_of_mem hw
      have hpos := List.length_pos_of_mem hw
      exact Prod.Lex.left _ _ (by simp only; omega)
    · split at h
      · cases h
        exact Prod.Lex.right _ (by simp [load])
      · exact absurd h (by simp)

/-- Walks on to the end: the building order, or the cycle that the path ran into. -/
def run (g : Digraph α) (s : Ordering α) : Except (List α) (List α) :=
  match _ : step g s with
  | .complete order => .ok order
  | .blocked cycle => .error cycle
  | .next s' => run g s'
termination_by (s.fresh.length, load s.frames)
decreasing_by exact step_decreases ‹_›

end Ordering

/-- Every vertex once, each edge leading forward; or a cycle, if the graph has one. -/
def buildOrder (g : Digraph α) : Except (List α) (List α) := Ordering.run g (Ordering.start g)

end BuildPlan.Digraph
