/-
  BuildPlan.Digraph.Reach
  ───────────────────────
  **WHAT CAN BE REACHED ALONG EDGES.**

  From a stack of vertices the search spreads to their neighbours, the neighbours
  of these, and so on.  The starting vertices themselves count only if an edge
  leads to them.  Each round takes the neighbours it reaches out of the fresh
  vertices and puts them on the stack, so stack and fresh vertices together lose
  one entry a round.
-/
import BuildPlan.Digraph.Basic

namespace BuildPlan.Digraph

variable {α : Type} [DecidableEq α]

/-- The members of `l` that are among `ws`. -/
def among (ws l : List α) : List α := l.filter (· ∈ ws)

/-- The members of `l` that are not among `ws`. -/
def notAmong (ws l : List α) : List α := l.filter (· ∉ ws)

/-- Each member is in one of the two parts, so a round loses no entry by parting the fresh vertices.
-/
theorem length_among_add_length_notAmong (ws l : List α) :
    (among ws l).length + (notAmong ws l).length = l.length := by
  simp only [among, notAmong]
  induction l with
  | nil => rfl
  | cons a l ih =>
    simp only [List.filter_cons, decide_eq_true_eq]
    by_cases h : a ∈ ws
    · simp only [h, if_true, not_true, if_false, List.length_cons]
      omega
    · simp only [h, if_false, not_false_iff, if_true, List.length_cons]
      omega

/-- The fresh vertices that a walk of one or more steps from the stack reaches. -/
def spread (next : α → List α) (fresh : List α) : List α → List α
  | [] => []
  | v :: stack =>
    among (next v) fresh
      ++ spread next (notAmong (next v) fresh) (among (next v) fresh ++ stack)
termination_by stack => fresh.length + stack.length
decreasing_by
  have hsplit := length_among_add_length_notAmong (next v) fresh
  simp only [List.length_append, List.length_cons]
  omega

/-- The vertices that a walk along `next` from the starting points reaches.  The starting points
are looked up from the last to the first, and one that is no vertex is handed back. -/
def closure (g : Digraph α) (next : α → List α) (starts : List α) : Except α (List α) :=
  match starts.reverse.find? (· ∉ g.vertices) with
  | some v => .error v
  | none => .ok (spread next g.vertices starts.reverse)

/-- Every vertex with a path to one of the starting points. -/
def ancestors (g : Digraph α) (starts : List α) : Except α (List α) :=
  g.closure g.predecessors starts

/-- Every vertex with a path from one of the starting points. -/
def descendants (g : Digraph α) (starts : List α) : Except α (List α) :=
  g.closure g.successors starts

end BuildPlan.Digraph
