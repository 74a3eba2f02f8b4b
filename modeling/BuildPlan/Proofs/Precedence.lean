/-
  BuildPlan.Proofs.Precedence
  ───────────────────────────
  **THE GRAPH OF SOME PROJECTS IS THEIR PRECEDENCE.**

  `Precedes` says which coordinate comes before which, read off the projects alone:
  the first belongs to a project of the list, and a project at the second names it as
  its parent, other than itself, or as a dependency.  The vertices of the graph are
  the coordinates (`mem_vertices_graph`), its edges are this relation (`edge_graph`),
  so its paths are the chains of the relation (`leads_graph`).
-/
import BuildPlan.Precedence
import BuildPlan.Proofs.Digraph.Entries
import BuildPlan.Proofs.Digraph.Path

namespace BuildPlan

/-! ## §1. Precedence among projects. -/

/-- The project names the coordinate as its parent, other than itself, or as a dependency. -/
def Project.Needs (q : Project) (c : Coordinate) : Prop :=
  (q.parent = some c ∧ c ≠ q.coordinate) ∨ c ∈ q.dependencies

/-- Some project of the list is at `u`, and one at `v` needs it. -/
def Precedes (projects : List Project) (u v : Coordinate) : Prop :=
  (∃ p ∈ projects, p.coordinate = u) ∧ ∃ q ∈ projects, q.coordinate = v ∧ q.Needs u

/-- A chain of one or more precedences leads from `u` to `v`. -/
def PrecedesVia (projects : List Project) : Coordinate → Coordinate → Prop :=
  Relation.TransGen (Precedes projects)

/-- Some coordinate precedes itself, directly or through others. -/
def Circular (projects : List Project) : Prop := ∃ c, PrecedesVia projects c c

theorem Project.mem_prerequisites {q : Project} {c : Coordinate} :
    c ∈ q.prerequisites ↔ q.Needs c := by
  unfold Project.prerequisites Project.Needs
  rw [List.mem_append, Option.mem_toList, Option.filter_eq_some_iff, decide_eq_true_eq]

/-- A project that is needed precedes the one that needs it. -/
theorem Project.Needs.precedes {projects : List Project} {p q : Project}
    (h : q.Needs p.coordinate) (hp : p ∈ projects) (hq : q ∈ projects) :
    Precedes projects p.coordinate q.coordinate :=
  ⟨⟨p, hp, rfl⟩, q, hq, rfl, h⟩

theorem Precedes.mem_left {projects : List Project} {u v : Coordinate}
    (h : Precedes projects u v) : u ∈ projects.map Project.coordinate := by
  obtain ⟨⟨p, hp, rfl⟩, -⟩ := h
  exact List.mem_map_of_mem hp

theorem Precedes.mem_right {projects : List Project} {u v : Coordinate}
    (h : Precedes projects u v) : v ∈ projects.map Project.coordinate := by
  obtain ⟨-, q, hq, rfl, -⟩ := h
  exact List.mem_map_of_mem hq

theorem PrecedesVia.mem_left {projects : List Project} {u v : Coordinate}
    (h : PrecedesVia projects u v) : u ∈ projects.map Project.coordinate := by
  obtain ⟨w, huw, -⟩ := Relation.TransGen.head'_iff.1 h
  exact huw.mem_left

theorem PrecedesVia.mem_right {projects : List Project} {u v : Coordinate}
    (h : PrecedesVia projects u v) : v ∈ projects.map Project.coordinate := by
  obtain ⟨w, -, hwv⟩ := Relation.TransGen.tail'_iff.1 h
  exact hwv.mem_right

/-! ## §2. The graph. -/

namespace Precedence

variable {projects : List Project} {u v : Coordinate}

/-- A pair is a link exactly if the first precedes the second. -/
theorem mem_links : (u, v) ∈ links projects ↔ Precedes projects u v := by
  unfold links Precedes
  simp only [List.mem_flatMap, List.mem_map, List.mem_filter, decide_eq_true_eq, Prod.mk.injEq]
  constructor
  · intro h
    obtain ⟨q, hq, c, ⟨hc, hu⟩, rfl, rfl⟩ := h
    exact ⟨hu, q, hq, rfl, Project.mem_prerequisites.1 hc⟩
  · intro h
    obtain ⟨hu, q, hq, rfl, hneeds⟩ := h
    exact ⟨q, hq, u, ⟨Project.mem_prerequisites.2 hneeds, hu⟩, rfl, rfl⟩

/-- The graph is made by entering the coordinates of the projects, and then the links. -/
theorem graph_eq_ofEntries (projects : List Project) :
    graph projects =
      Digraph.ofEntries (projects.map (fun p => Digraph.Entry.vertex p.coordinate) ++
        (links projects).map fun e => Digraph.Entry.edge e.1 e.2) := by
  unfold graph Digraph.ofEntries
  rw [List.foldl_append, List.foldl_map, List.foldl_map, List.foldl_map]
  rfl

/-- The vertices are the coordinates, each where it is first met. -/
theorem vertices_graph (projects : List Project) :
    (graph projects).vertices = distinct (projects.map Project.coordinate) := by
  rw [graph_eq_ofEntries, Digraph.vertices_ofEntries, List.flatMap_append, List.flatMap_map,
    List.flatMap_map]
  have hcoordinates : (projects.flatMap fun p => (Digraph.Entry.vertex p.coordinate).mentions) =
      projects.map Project.coordinate := List.map_eq_flatMap.symm
  rw [hcoordinates]
  -- a link has both its ends among the projects, so no edge brings a new vertex
  apply distinct_append_of_subset
  intro c hc
  obtain ⟨e, he, hce⟩ := List.mem_flatMap.1 hc
  have hprecedes : Precedes projects e.1 e.2 := mem_links.1 he
  simp only [Digraph.Entry.mentions, List.mem_cons, List.not_mem_nil, or_false] at hce
  rcases hce with rfl | rfl
  · exact hprecedes.mem_left
  · exact hprecedes.mem_right

/-- The edges are the links, each where it is first met. -/
theorem edges_graph (projects : List Project) :
    (graph projects).edges = distinct (links projects) := by
  rw [graph_eq_ofEntries, Digraph.edges_ofEntries, List.filterMap_append, List.filterMap_map,
    List.filterMap_map]
  have hvertices : projects.filterMap
      (Digraph.Entry.edge? ∘ fun p => Digraph.Entry.vertex p.coordinate) = [] := by
    simp [Function.comp_def, Digraph.Entry.edge?]
  have hlinks : (links projects).filterMap
      (Digraph.Entry.edge? ∘ fun e => Digraph.Entry.edge e.1 e.2) = links projects := by
    simp [Function.comp_def, Digraph.Entry.edge?]
  rw [hvertices, hlinks, List.nil_append]

theorem mem_vertices_graph :
    v ∈ (graph projects).vertices ↔ v ∈ projects.map Project.coordinate := by
  rw [vertices_graph, mem_distinct]

/-- An edge says that one project directly precedes the other. -/
theorem edge_graph : (graph projects).Edge u v ↔ Precedes projects u v := by
  unfold Digraph.Edge
  rw [edges_graph, mem_distinct, mem_links]

/-- A path in the graph is a chain of precedences. -/
theorem leads_graph : (graph projects).Leads = PrecedesVia projects := by
  have hedge : (graph projects).Edge = Precedes projects := by
    funext u v
    exact propext edge_graph
  unfold Digraph.Leads PrecedesVia
  rw [hedge]

/-- The graph has no cycle exactly if no projects need each other in a ring. -/
theorem acyclic_graph_iff : (graph projects).Acyclic ↔ ¬ Circular projects := by
  unfold Digraph.Acyclic Circular
  rw [leads_graph, not_exists]

end Precedence

end BuildPlan
