/-
  BuildPlan.Proofs.Digraph.Entries
  ────────────────────────────────
  **A GRAPH IS THE ENTRIES THAT MADE IT.**

  A graph is made from the empty one by entering vertices and edges (`ofEntries`).
  What it then holds can be read off the entries, later repeats dropped:

      vertices          what the entries mention, an edge its start before its end
      successors u      where the edges entered from u lead
      predecessors v    where the edges entered to v come from

  The neighbours can also be kept in two tables, one for each direction, that every
  entry changes side by side (`Tables`); whether an edge is new is then looked up in
  one of them only.  Each entry does to the tables of a graph what it does to the graph
  (`tables_enter`), so the tables are mirror images of each other after any entries.
-/
import BuildPlan.Digraph.Basic
import BuildPlan.Distinct

namespace BuildPlan.Digraph

variable {α : Type}

/-! ## §1. Entries. -/

/-- An entry in the making of a graph. -/
inductive Entry (α : Type) where
  | vertex (v : α)
  | edge (before after : α)
deriving DecidableEq, Repr

namespace Entry

/-- The vertices that an entry mentions, in this order. -/
def mentions : Entry α → List α
  | vertex v => [v]
  | edge before after => [before, after]

/-- The edge that is entered, if it is an edge. -/
def edge? : Entry α → Option (α × α)
  | vertex _ => none
  | edge before after => some (before, after)

variable [DecidableEq α]

/-- Where the edge leads that is entered, if it is an edge from `u`. -/
def targetFrom? (u : α) : Entry α → Option α
  | vertex _ => none
  | edge before after => if before = u then some after else none

/-- Where the edge comes from that is entered, if it is an edge to `v`. -/
def sourceTo? (v : α) : Entry α → Option α
  | vertex _ => none
  | edge before after => if after = v then some before else none

end Entry

variable [DecidableEq α]

/-- The graph with one more entry. -/
def enter (g : Digraph α) : Entry α → Digraph α
  | .vertex v => g.insertVertex v
  | .edge before after => (g.addEdge before after).1

/-- The graph that some entries make. -/
def ofEntries (entries : List (Entry α)) : Digraph α := entries.foldl enter empty

/-! ## §2. What one entry does. -/

section

variable {g : Digraph α} {u v w : α}

theorem insertVertex_of_mem (h : v ∈ g.vertices) : g.insertVertex v = g := by
  unfold insertVertex
  rw [dif_pos h]

@[simp] theorem successors_insertVertex : (g.insertVertex v).successors u = g.successors u := by
  unfold successors
  rw [edges_insertVertex]

@[simp] theorem predecessors_insertVertex :
    (g.insertVertex v).predecessors u = g.predecessors u := by
  unfold predecessors
  rw [edges_insertVertex]

theorem successors_eq_nil (h : v ∉ g.vertices) : g.successors v = [] := by
  rw [List.eq_nil_iff_forall_not_mem]
  intro w hw
  exact h (g.source_mem _ (mem_successors.1 hw))

theorem predecessors_eq_nil (h : v ∉ g.vertices) : g.predecessors v = [] := by
  rw [List.eq_nil_iff_forall_not_mem]
  intro w hw
  exact h (g.target_mem _ (mem_predecessors.1 hw))

/-- An edge brings its ends with it, the one that it begins at first. -/
theorem vertices_insertEdge :
    (g.insertEdge u v).vertices = ((g.insertVertex u).insertVertex v).vertices := by
  dsimp only [insertEdge]
  split <;> rfl

/-- A new edge comes last; one that is there keeps its place. -/
theorem edges_insertEdge :
    (g.insertEdge u v).edges = if (u, v) ∈ g.edges then g.edges else g.edges ++ [(u, v)] := by
  dsimp only [insertEdge]
  simp only [edges_insertVertex]
  split
  · simp
  · rfl

/-- An edge that is there already changes nothing. -/
theorem insertEdge_of_mem (h : (u, v) ∈ g.edges) : g.insertEdge u v = g := by
  have hu : g.insertVertex u = g := insertVertex_of_mem (g.source_mem _ h)
  have hv : g.insertVertex v = g := insertVertex_of_mem (g.target_mem _ h)
  have hmem : (u, v) ∈ ((g.insertVertex u).insertVertex v).edges := by
    rw [hu, hv]
    exact h
  dsimp only [insertEdge]
  rw [dif_pos hmem, hu, hv]

theorem vertices_insertVertex_eq_distinct :
    (g.insertVertex v).vertices = distinct (g.vertices ++ [v]) := by
  rw [vertices_insertVertex, distinct_concat, distinct_of_nodup g.vertices_nodup]

/-- An entry adds what it mentions and is new, in the order of mention. -/
theorem vertices_enter (e : Entry α) :
    (g.enter e).vertices = distinct (g.vertices ++ e.mentions) := by
  cases e with
  | vertex v => exact vertices_insertVertex_eq_distinct
  | edge u v =>
    show (g.insertEdge u v).vertices = distinct (g.vertices ++ [u, v])
    rw [vertices_insertEdge, vertices_insertVertex_eq_distinct, vertices_insertVertex_eq_distinct,
      distinct_distinct_append, List.append_assoc]
    rfl

theorem edges_enter (e : Entry α) :
    (g.enter e).edges = distinct (g.edges ++ e.edge?.toList) := by
  cases e with
  | vertex v =>
    show (g.insertVertex v).edges = distinct (g.edges ++ [])
    rw [edges_insertVertex, List.append_nil, distinct_of_nodup g.edges_nodup]
  | edge u v =>
    show (g.insertEdge u v).edges = distinct (g.edges ++ [(u, v)])
    rw [edges_insertEdge, distinct_concat, distinct_of_nodup g.edges_nodup]
    by_cases h : (u, v) ∈ g.edges
    · rw [if_pos h, if_pos h]
    · rw [if_neg h, if_neg h]

end

/-! ## §3. What all entries make. -/

/-- Entries add what they mention, each where it is first mentioned. -/
theorem vertices_foldl_enter (entries : List (Entry α)) (g : Digraph α) :
    (entries.foldl enter g).vertices = distinct (g.vertices ++ entries.flatMap Entry.mentions) := by
  induction entries generalizing g with
  | nil => simp [distinct_of_nodup g.vertices_nodup]
  | cons e entries ih =>
    rw [List.foldl_cons, ih, vertices_enter, distinct_distinct_append, List.flatMap_cons,
      List.append_assoc]

theorem edges_foldl_enter (entries : List (Entry α)) (g : Digraph α) :
    (entries.foldl enter g).edges = distinct (g.edges ++ entries.filterMap Entry.edge?) := by
  induction entries generalizing g with
  | nil => simp [distinct_of_nodup g.edges_nodup]
  | cons e entries ih =>
    have hcons : (e :: entries).filterMap Entry.edge? =
        e.edge?.toList ++ entries.filterMap Entry.edge? := by
      cases e <;> rfl
    rw [List.foldl_cons, ih, edges_enter, distinct_distinct_append, hcons, List.append_assoc]

variable (entries : List (Entry α)) (u v : α)

/-- The vertices stand in the order of first mention. -/
theorem vertices_ofEntries :
    (ofEntries entries).vertices = distinct (entries.flatMap Entry.mentions) :=
  vertices_foldl_enter entries empty

/-- The edges stand in the order of first entry. -/
theorem edges_ofEntries :
    (ofEntries entries).edges = distinct (entries.filterMap Entry.edge?) :=
  edges_foldl_enter entries empty

/-- There is an edge exactly if it was entered. -/
theorem mem_edges_ofEntries {entries : List (Entry α)} {u v : α} :
    (u, v) ∈ (ofEntries entries).edges ↔ Entry.edge u v ∈ entries := by
  rw [edges_ofEntries, mem_distinct, List.mem_filterMap]
  constructor
  · rintro ⟨e, he, hedge⟩
    cases e with
    | vertex w => exact absurd hedge (by simp [Entry.edge?])
    | edge a b =>
      simp only [Entry.edge?, Option.some.injEq, Prod.mk.injEq] at hedge
      obtain ⟨rfl, rfl⟩ := hedge
      exact he
  · intro h
    exact ⟨_, h, rfl⟩

/-- The edges that have `w` at one end, seen from the other end: `f` reads them off the entries. -/
theorem map_filter_edges_ofEntries {key other : α × α → α} {w : α} {f : Entry α → Option α}
    (hf : ∀ e : Entry α, f e = e.edge?.bind fun p => if key p = w then some (other p) else none)
    (hends : ∀ p q, key p = key q → other p = other q → p = q) :
    ((ofEntries entries).edges.filter fun p => key p = w).map other =
      distinct (entries.filterMap f) := by
  have hread : ((entries.filterMap Entry.edge?).filter fun p => key p = w).map other =
      entries.filterMap f := by
    induction entries with
    | nil => rfl
    | cons e entries ih =>
      cases hedge : e.edge? with
      | none =>
        have hnone : f e = none := by
          rw [hf, hedge]
          rfl
        rw [List.filterMap_cons_none hedge, List.filterMap_cons_none hnone, ih]
      | some p =>
        by_cases hp : key p = w
        · have hsome : f e = some (other p) := by
            rw [hf, hedge]
            exact if_pos hp
          rw [List.filterMap_cons_some hedge, List.filterMap_cons_some hsome,
            List.filter_cons_of_pos (by simpa using hp), List.map_cons, ih]
        · have hnone : f e = none := by
            rw [hf, hedge]
            exact if_neg hp
          rw [List.filterMap_cons_some hedge, List.filterMap_cons_none hnone,
            List.filter_cons_of_neg (by simpa using hp), ih]
  -- edges with one end in common are told apart by the other
  rw [edges_ofEntries, filter_distinct, map_distinct, hread]
  intro p hp q hq heq
  simp only [List.mem_filter, decide_eq_true_eq] at hp hq
  exact hends p q (hp.2.trans hq.2.symm) heq

/-- The successors of a vertex stand in the order in which edges from it were first entered. -/
theorem successors_ofEntries :
    (ofEntries entries).successors u = distinct (entries.filterMap (Entry.targetFrom? u)) := by
  apply map_filter_edges_ofEntries
  · intro e
    cases e <;> rfl
  · intro p q
    exact Prod.ext

theorem predecessors_ofEntries :
    (ofEntries entries).predecessors v = distinct (entries.filterMap (Entry.sourceTo? v)) := by
  apply map_filter_edges_ofEntries
  · intro e
    cases e <;> rfl
  · intro p q htarget hsource
    exact Prod.ext hsource htarget

/-! ## §4. Two tables of neighbours. -/

/-- A table of vertices, each with a list of neighbours. -/
abbrev Table (α : Type) := List (α × List α)

namespace Table

/-- The neighbours of a vertex; none if it is not in the table. -/
def row (t : Table α) (v : α) : List α := ((t.find? fun r => r.1 = v).map Prod.snd).getD []

/-- The table with one more neighbour of a vertex, behind the others. -/
def extend (t : Table α) (v w : α) : Table α :=
  t.map fun r => if r.1 = v then (r.1, r.2 ++ [w]) else r

/-- In a table that a function fills, the row of a vertex is what the function says. -/
theorem row_map {f : α → List α} {l : List α} {v : α} (hv : v ∈ l) :
    row (l.map fun u => (u, f u)) v = f v := by
  induction l with
  | nil => exact absurd hv (by simp)
  | cons u l ih =>
    by_cases hu : u = v
    · simp [row, hu]
    · have hrest := ih ((List.mem_cons.1 hv).resolve_left fun h => hu h.symm)
      simpa [row, hu] using hrest

/-- To extend one row of such a table is to change the function at one vertex. -/
theorem extend_map (f : α → List α) (l : List α) (v w : α) :
    extend (l.map fun u => (u, f u)) v w = l.map fun u => (u, if u = v then f u ++ [w] else f u) := by
  unfold extend
  rw [List.map_map]
  apply List.map_congr_left
  intro u _
  by_cases hu : u = v
  · simp [hu]
  · simp [hu]

end Table

/-- The neighbours of every vertex, in a table for each direction. -/
structure Tables (α : Type) where
  /-- Where the edges from each vertex lead. -/
  successors : Table α
  /-- Where the edges to each vertex come from. -/
  predecessors : Table α

namespace Tables

/-- Both tables with the vertex; a new vertex goes to their ends. -/
def insertVertex (t : Tables α) (v : α) : Tables α :=
  if v ∈ t.successors.map Prod.fst then t
  else ⟨t.successors ++ [(v, [])], t.predecessors ++ [(v, [])]⟩

/-- Adds an edge to both tables if the table of successors does not have it, and tells whether it
was new. -/
def addEdge (t : Tables α) (before after : α) : Tables α × Bool :=
  let t' := (t.insertVertex before).insertVertex after
  if after ∈ t'.successors.row before then (t', false)
  else (⟨t'.successors.extend before after, t'.predecessors.extend after before⟩, true)

/-- The tables with one more entry. -/
def enter (t : Tables α) : Entry α → Tables α
  | .vertex v => t.insertVertex v
  | .edge before after => (t.addEdge before after).1

/-- The tables that some entries make. -/
def ofEntries (entries : List (Entry α)) : Tables α := entries.foldl enter ⟨[], []⟩

end Tables

/-- The neighbours in a graph, vertex by vertex in order of discovery. -/
def tables (g : Digraph α) : Tables α :=
  ⟨g.vertices.map fun u => (u, g.successors u), g.vertices.map fun v => (v, g.predecessors v)⟩

/-- The tables take a vertex as the graph does. -/
theorem tables_insertVertex (g : Digraph α) (v : α) :
    g.tables.insertVertex v = (g.insertVertex v).tables := by
  have hkeys : g.tables.successors.map Prod.fst = g.vertices := by
    simp [tables, Function.comp_def]
  unfold Tables.insertVertex
  rw [hkeys]
  by_cases hv : v ∈ g.vertices
  · rw [if_pos hv, insertVertex_of_mem hv]
  · have hvertices : (g.insertVertex v).vertices = g.vertices ++ [v] := by
      rw [vertices_insertVertex, if_neg hv]
    rw [if_neg hv]
    simp [tables, hvertices, successors_eq_nil hv, predecessors_eq_nil hv]

/-- An edge more, seen from the vertex `key p`, is one more neighbour in the row of that vertex. -/
theorem extend_edges {g g' : Digraph α} {p : α × α} (key other : α × α → α)
    (hvertices : g'.vertices = g.vertices) (hedges : g'.edges = g.edges ++ [p]) :
    Table.extend (g.vertices.map fun a => (a, (g.edges.filter fun e => key e = a).map other))
        (key p) (other p) =
      g'.vertices.map fun a => (a, (g'.edges.filter fun e => key e = a).map other) := by
  rw [Table.extend_map, hvertices, hedges]
  apply List.map_congr_left
  intro a _
  by_cases ha : a = key p
  · simp [ha]
  · have hkey : key p ≠ a := fun h => ha h.symm
    simp [ha, hkey]

/-- **Adding an edge to the tables of a graph gives the tables of the graph with the edge, and the
same answer.** -/
theorem tables_addEdge (g : Digraph α) (u v : α) :
    g.tables.addEdge u v = ((g.addEdge u v).1.tables, (g.addEdge u v).2) := by
  have hrow : ((g.insertVertex u).insertVertex v).tables.successors.row u = g.successors u := by
    have hu : u ∈ ((g.insertVertex u).insertVertex v).vertices := by simp
    show Table.row (List.map _ _) u = _
    rw [Table.row_map hu, successors_insertVertex, successors_insertVertex]
  dsimp only [Tables.addEdge]
  rw [tables_insertVertex, tables_insertVertex, hrow]
  by_cases h : (u, v) ∈ g.edges
  · have hanswer : (g.addEdge u v).2 = false := by simp [addEdge, hasEdge, h]
    rw [if_pos (mem_successors.2 h), insertVertex_of_mem (g.source_mem _ h),
      insertVertex_of_mem (g.target_mem _ h), hanswer]
    show (g.tables, false) = ((g.insertEdge u v).tables, false)
    rw [insertEdge_of_mem h]
  · have hanswer : (g.addEdge u v).2 = true := by simp [addEdge, hasEdge, h]
    have hedges : (g.insertEdge u v).edges =
        ((g.insertVertex u).insertVertex v).edges ++ [(u, v)] := by
      rw [edges_insertEdge, if_neg h, edges_insertVertex, edges_insertVertex]
    have hsuccessors : ((g.insertVertex u).insertVertex v).tables.successors.extend u v =
        (g.insertEdge u v).tables.successors :=
      extend_edges Prod.fst Prod.snd vertices_insertEdge hedges
    have hpredecessors : ((g.insertVertex u).insertVertex v).tables.predecessors.extend v u =
        (g.insertEdge u v).tables.predecessors :=
      extend_edges Prod.snd Prod.fst vertices_insertEdge hedges
    rw [if_neg fun hmem => h (mem_successors.1 hmem), hsuccessors, hpredecessors, hanswer]
    rfl

/-- The tables take an entry as the graph does. -/
theorem tables_enter (g : Digraph α) (e : Entry α) : g.tables.enter e = (g.enter e).tables := by
  cases e with
  | vertex v => exact tables_insertVertex g v
  | edge u v =>
    show (g.tables.addEdge u v).1 = _
    rw [tables_addEdge]
    rfl

/-- Entries that are taken one by one leave tables and graph in step. -/
theorem tables_ofEntries : Tables.ofEntries entries = (ofEntries entries).tables := by
  have hrun : ∀ g : Digraph α, entries.foldl Tables.enter g.tables =
      (entries.foldl enter g).tables := by
    induction entries with
    | nil => intro g; rfl
    | cons e entries ih =>
      intro g
      rw [List.foldl_cons, List.foldl_cons, tables_enter, ih]
  exact hrun empty

/-! ## §5. The law of the entries. -/

/-- **After any entries, the two tables hold the neighbours in the graph; the vertices, the
successors and the predecessors are what the entries name, in order of first mention; each edge is
in both lists or in neither; and an edge is answered as not new exactly if it has been entered
before, and then changes nothing.** -/
theorem tables_mirror_entries :
    Tables.ofEntries entries = (ofEntries entries).tables ∧
      (ofEntries entries).vertices = distinct (entries.flatMap Entry.mentions) ∧
      (∀ u, (ofEntries entries).successors u = distinct (entries.filterMap (Entry.targetFrom? u))) ∧
      (∀ v, (ofEntries entries).predecessors v = distinct (entries.filterMap (Entry.sourceTo? v))) ∧
      (∀ u v, (u ∈ (ofEntries entries).predecessors v ↔ v ∈ (ofEntries entries).successors u) ∧
        (v ∈ (ofEntries entries).successors u ↔ (ofEntries entries).hasEdge u v = true)) ∧
      (∀ v, ((ofEntries entries).successors v).Nodup ∧ ((ofEntries entries).predecessors v).Nodup) ∧
      (∀ u v, (ofEntries entries).hasEdge u v = true →
        u ∈ (ofEntries entries).vertices ∧ v ∈ (ofEntries entries).vertices) ∧
      ∀ u v, (Tables.ofEntries entries).addEdge u v =
          (((ofEntries entries).addEdge u v).1.tables, ((ofEntries entries).addEdge u v).2) ∧
        (((ofEntries entries).addEdge u v).2 = false ↔ Entry.edge u v ∈ entries) ∧
        (Entry.edge u v ∈ entries → ((ofEntries entries).addEdge u v).1 = ofEntries entries) := by
  refine ⟨tables_ofEntries entries, vertices_ofEntries entries, successors_ofEntries entries,
    predecessors_ofEntries entries, ?_, ?_, ?_, ?_⟩
  · intro u v
    rw [mem_predecessors, mem_successors]
    simp [hasEdge]
  · intro v
    rw [successors_ofEntries, predecessors_ofEntries]
    exact ⟨nodup_distinct _, nodup_distinct _⟩
  · intro u v h
    have hmem : (u, v) ∈ (ofEntries entries).edges := by simpa [hasEdge] using h
    exact ⟨(ofEntries entries).source_mem _ hmem, (ofEntries entries).target_mem _ hmem⟩
  · intro u v
    rw [tables_ofEntries]
    refine ⟨tables_addEdge _ u v, ?_, ?_⟩
    · rw [← mem_edges_ofEntries]
      simp [addEdge, hasEdge]
    · intro h
      exact insertEdge_of_mem (mem_edges_ofEntries.2 h)

/-- A loop, a repeated edge, and a vertex first mentioned as an end. -/
example :
    Tables.ofEntries [.edge 1 2, .edge 3 3, .vertex 2, .edge 1 2, .edge 3 2] =
      (⟨[(1, [2]), (2, []), (3, [3, 2])], [(1, []), (2, [1, 3]), (3, [3])]⟩ : Tables Nat) := rfl

end BuildPlan.Digraph
