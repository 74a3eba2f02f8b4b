/-
  BuildPlan.Digraph.Basic
  ───────────────────────
  **DIRECTED GRAPHS THAT REMEMBER THE ORDER OF THEIR MAKING.**

  Vertices stand in order of discovery, edges in the order in which they were
  added.  The neighbours of a vertex are read off the edges, so the lists of
  successors and predecessors keep the order of insertion too.  That no vertex and
  no edge is repeated, and that edges join vertices, is part of the type.
-/

namespace BuildPlan

/-- A finite directed graph; an edge may lead from a vertex to itself. -/
structure Digraph (α : Type) where
  /-- The vertices, in order of discovery. -/
  vertices : List α
  /-- The edges, in the order in which they were added. -/
  edges : List (α × α)
  vertices_nodup : vertices.Nodup
  edges_nodup : edges.Nodup
  source_mem : ∀ e ∈ edges, e.1 ∈ vertices
  target_mem : ∀ e ∈ edges, e.2 ∈ vertices

namespace Digraph

variable {α : Type}

/-- A graph is its vertices and its edges. -/
theorem eq_of_lists {g g' : Digraph α} (hvertices : g.vertices = g'.vertices)
    (hedges : g.edges = g'.edges) : g = g' := by
  cases g
  cases g'
  cases hvertices
  cases hedges
  rfl

/-- The graph without vertices. -/
def empty : Digraph α where
  vertices := []
  edges := []
  vertices_nodup := by simp
  edges_nodup := by simp
  source_mem := by simp
  target_mem := by simp

variable [DecidableEq α]

/-! ## §1. Adding vertices and edges. -/

/-- The graph with the vertex; a new vertex goes to the end. -/
def insertVertex (g : Digraph α) (v : α) : Digraph α :=
  if h : v ∈ g.vertices then g
  else
    { vertices := g.vertices ++ [v]
      edges := g.edges
      vertices_nodup := by
        rw [List.nodup_append]
        refine ⟨g.vertices_nodup, by simp, ?_⟩
        intro a ha b hb hab
        exact h (List.mem_singleton.1 hb ▸ hab ▸ ha)
      edges_nodup := g.edges_nodup
      source_mem := fun e he => List.mem_append_left _ (g.source_mem e he)
      target_mem := fun e he => List.mem_append_left _ (g.target_mem e he) }

/-- A new vertex comes last; one that is there keeps its place. -/
theorem vertices_insertVertex (g : Digraph α) (v : α) :
    (g.insertVertex v).vertices = if v ∈ g.vertices then g.vertices else g.vertices ++ [v] := by
  unfold insertVertex
  split <;> rfl

@[simp] theorem mem_vertices_insertVertex {g : Digraph α} {u v : α} :
    u ∈ (g.insertVertex v).vertices ↔ u ∈ g.vertices ∨ u = v := by
  rw [vertices_insertVertex]
  by_cases h : v ∈ g.vertices
  · rw [if_pos h]
    refine ⟨Or.inl, ?_⟩
    rintro (hu | rfl)
    · exact hu
    · exact h
  · rw [if_neg h]
    simp

theorem mem_insertVertex_self (g : Digraph α) (v : α) : v ∈ (g.insertVertex v).vertices := by
  unfold insertVertex
  split
  · assumption
  · simp

theorem mem_insertVertex_of_mem {g : Digraph α} {u v : α} (h : u ∈ g.vertices) :
    u ∈ (g.insertVertex v).vertices := by
  unfold insertVertex
  split
  · exact h
  · exact List.mem_append_left _ h

@[simp] theorem edges_insertVertex (g : Digraph α) (v : α) :
    (g.insertVertex v).edges = g.edges := by
  unfold insertVertex
  split <;> rfl

/-- The graph with both vertices and the edge between them; a new edge goes to the end. -/
def insertEdge (g : Digraph α) (before after : α) : Digraph α :=
  let g' := (g.insertVertex before).insertVertex after
  if h : (before, after) ∈ g'.edges then g'
  else
    { vertices := g'.vertices
      edges := g'.edges ++ [(before, after)]
      vertices_nodup := g'.vertices_nodup
      edges_nodup := by
        rw [List.nodup_append]
        refine ⟨g'.edges_nodup, by simp, ?_⟩
        intro a ha b hb hab
        exact h (List.mem_singleton.1 hb ▸ hab ▸ ha)
      source_mem := by
        intro e he
        rcases List.mem_append.1 he with he | he
        · exact g'.source_mem e he
        · rw [List.mem_singleton.1 he]
          exact mem_insertVertex_of_mem (mem_insertVertex_self _ _)
      target_mem := by
        intro e he
        rcases List.mem_append.1 he with he | he
        · exact g'.target_mem e he
        · rw [List.mem_singleton.1 he]
          exact mem_insertVertex_self _ _ }

/-! ## §2. Looking at a graph. -/

/-- Whether the graph has the edge. -/
def hasEdge (g : Digraph α) (before after : α) : Bool := (before, after) ∈ g.edges

/-- Adds an edge as `insertEdge` does, and tells whether it was new. -/
def addEdge (g : Digraph α) (before after : α) : Digraph α × Bool :=
  (g.insertEdge before after, !g.hasEdge before after)

/-- Where the edges from a vertex lead, in order of insertion. -/
def successors (g : Digraph α) (v : α) : List α :=
  (g.edges.filter fun e => e.1 = v).map Prod.snd

/-- Where the edges to a vertex come from, in order of insertion. -/
def predecessors (g : Digraph α) (v : α) : List α :=
  (g.edges.filter fun e => e.2 = v).map Prod.fst

@[simp] theorem mem_successors {g : Digraph α} {u v : α} :
    v ∈ g.successors u ↔ (u, v) ∈ g.edges := by
  simp [successors]

@[simp] theorem mem_predecessors {g : Digraph α} {u v : α} :
    u ∈ g.predecessors v ↔ (u, v) ∈ g.edges := by
  simp [predecessors]

/-- The edges grouped by the vertex they start at, in order of discovery. -/
def edgesBySource (g : Digraph α) : List (α × α) :=
  g.vertices.flatMap fun u => (g.successors u).map fun v => (u, v)

end Digraph

end BuildPlan
