/-
  BuildPlan.Proofs.Links
  ──────────────────────
  **THE NEIGHBOURS OF A PROJECT IN THE GRAPH, AND THEIR ORDER.**

  Of what a project needs, only the projects in the list are linked to it: its parent
  first, then its dependencies in declaration order, and the parent not again
  (`Project.linksAmong`).  In a list without a repeated coordinate the edges of the
  graph are these links, project by project (`edges_graph_eq_flatMap`), so both kinds
  of neighbours can be read off the list:

      predecessors of p    what p is linked to, in the order of its links
      successors of p      who needs p, in the order of the list

  Nothing else about the projects shows in the graph (`graph_lists_neighbours`).
-/
import BuildPlan.Proofs.Precedence
import Mathlib.Data.List.Forall2

namespace BuildPlan

/-! ## §1. The links of one project. -/

namespace Project

/-- The parent, if it is another project and its coordinate is among the given ones. -/
def parentAmong (p : Project) (coordinates : List Coordinate) : Option Coordinate :=
  p.parent.filter fun c => c ≠ p.coordinate ∧ c ∈ coordinates

/-- The dependencies that are among the given coordinates, in declaration order. -/
def dependenciesAmong (p : Project) (coordinates : List Coordinate) : List Coordinate :=
  p.dependencies.filter (· ∈ coordinates)

/-- What the project is linked to among the given coordinates: its parent, then its dependencies
without the parent. -/
def linksAmong (p : Project) (coordinates : List Coordinate) : List Coordinate :=
  (p.parentAmong coordinates).toList ++
    (p.dependenciesAmong coordinates).filter fun c => p.parentAmong coordinates ≠ some c

/-- Both projects are at the same coordinate, and among the given coordinates they have the same
parent, apart from themselves, and the same dependencies. -/
structure SameLinks (coordinates : List Coordinate) (p q : Project) : Prop where
  coordinate_eq : p.coordinate = q.coordinate
  parent_eq : p.parentAmong coordinates = q.parentAmong coordinates
  dependencies_eq : p.dependenciesAmong coordinates = q.dependenciesAmong coordinates

instance (p : Project) (c : Coordinate) : Decidable (p.Needs c) :=
  inferInstanceAs (Decidable (_ ∨ _))

variable {p q : Project} {coordinates : List Coordinate} {c : Coordinate}

/-- The prerequisites in the list, without repeats: only the parent can occur twice among them. -/
theorem distinct_prerequisites (p : Project) (coordinates : List Coordinate) :
    distinct (p.prerequisites.filter (· ∈ coordinates)) = p.linksAmong coordinates := by
  have hparent : (p.parent.filter (· ≠ p.coordinate)).toList.filter (· ∈ coordinates) =
      (p.parentAmong coordinates).toList := by
    unfold parentAmong
    rw [← Option.toList_filter, Option.filter_filter]
    simp only [Bool.decide_and]
  have hnodup : (p.dependenciesAmong coordinates).Nodup := p.dependencies_nodup.filter _
  unfold prerequisites linksAmong
  rw [List.filter_append, hparent]
  show distinct (_ ++ p.dependenciesAmong coordinates) = _
  rw [distinct_append, distinct_of_nodup hnodup]
  -- the parent is one coordinate or none
  cases p.parentAmong coordinates with
  | none => simp [distinct]
  | some d => simp [distinct, eq_comm]

/-- A project is linked to each prerequisite once. -/
theorem nodup_linksAmong (p : Project) (coordinates : List Coordinate) :
    (p.linksAmong coordinates).Nodup := by
  rw [← distinct_prerequisites]
  exact nodup_distinct _

/-- A project is linked to what it needs, as far as that is among the coordinates. -/
theorem mem_linksAmong_iff : c ∈ p.linksAmong coordinates ↔ p.Needs c ∧ c ∈ coordinates := by
  rw [← distinct_prerequisites, mem_distinct, List.mem_filter, mem_prerequisites,
    decide_eq_true_eq]

/-- The links are read off the parent and the dependencies alone. -/
theorem SameLinks.linksAmong_eq (h : SameLinks coordinates p q) :
    p.linksAmong coordinates = q.linksAmong coordinates := by
  unfold linksAmong
  rw [h.parent_eq, h.dependencies_eq]

/-- The links of a project that lead to `c`, seen from there: one or none. -/
theorem map_filter_linksAmong (p : Project) (coordinates : List Coordinate) (c : Coordinate) :
    (((p.linksAmong coordinates).map fun d => (d, p.coordinate)).filter
        fun e => e.1 = c).map Prod.snd =
      if c ∈ p.linksAmong coordinates then [p.coordinate] else [] := by
  rw [List.filter_map, List.map_map]
  show ((p.linksAmong coordinates).filter fun d => d = c).map (fun _ => p.coordinate) = _
  rw [List.map_const', ← List.countP_eq_length_filter]
  have hcount : (p.linksAmong coordinates).countP (fun d => d = c) =
      if c ∈ p.linksAmong coordinates then 1 else 0 :=
    (p.nodup_linksAmong coordinates).count
  rw [hcount]
  split <;> rfl

end Project

/-! ## §2. The edges of the graph, project by project. -/

namespace Precedence

open Project (SameLinks)

variable {projects projects' : List Project} {p : Project}

/-- Without a repeated coordinate, the edges are the links of the first project, then those of the
second, and so on. -/
theorem edges_graph_eq_flatMap (h : (projects.map Project.coordinate).Nodup) :
    (graph projects).edges = projects.flatMap fun p =>
      (p.linksAmong (projects.map Project.coordinate)).map fun c => (c, p.coordinate) := by
  rw [edges_graph]
  unfold links
  rw [distinct_flatMap (List.Nodup.of_map _ h)]
  · apply List.flatMap_congr
    intro p _
    rw [← Project.distinct_prerequisites, map_distinct]
    intro c _ d _ heq
    exact congrArg Prod.fst heq
  · -- a link shows which project it belongs to
    intro p hp q hq e hep heq
    obtain ⟨c, -, rfl⟩ := List.mem_map.1 hep
    obtain ⟨d, -, hqp⟩ := List.mem_map.1 heq
    exact List.inj_on_of_nodup_map h hp hq (congrArg Prod.snd hqp).symm

/-- The predecessors of a project are its links, as the project declares them. -/
theorem predecessors_graph (h : (projects.map Project.coordinate).Nodup) (hp : p ∈ projects) :
    (graph projects).predecessors p.coordinate =
      p.linksAmong (projects.map Project.coordinate) := by
  unfold Digraph.predecessors
  rw [edges_graph_eq_flatMap h, List.filter_flatMap, List.map_flatMap,
    flatMap_eq_of_forall_ne (List.Nodup.of_map _ h) hp]
  · rw [List.filter_eq_self.2, List.map_map]
    · exact List.map_id _
    · intro e he
      obtain ⟨c, -, rfl⟩ := List.mem_map.1 he
      simp
  · -- the links of another project do not end at `p`
    intro q hq hqp
    have hne : q.coordinate ≠ p.coordinate := fun heq => hqp (List.inj_on_of_nodup_map h hq hp heq)
    rw [List.filter_eq_nil_iff.2, List.map_nil]
    intro e he
    obtain ⟨c, -, rfl⟩ := List.mem_map.1 he
    simpa using hne

/-- The successors of a project are the projects that need it, in order of discovery. -/
theorem successors_graph (h : (projects.map Project.coordinate).Nodup) (hp : p ∈ projects) :
    (graph projects).successors p.coordinate =
      (projects.filter fun q => q.Needs p.coordinate).map Project.coordinate := by
  have hmem : p.coordinate ∈ projects.map Project.coordinate := List.mem_map_of_mem hp
  unfold Digraph.successors
  rw [edges_graph_eq_flatMap h, List.filter_flatMap, List.map_flatMap]
  -- each project that needs `p` has one link to it, and each other one none
  simp only [Project.map_filter_linksAmong, Project.mem_linksAmong_iff, hmem, and_true]
  exact flatMap_ite_singleton projects _ _

/-- Only a dependency leads from a project to itself; a parent link to itself is no edge. -/
theorem hasEdge_self_iff {c : Coordinate} :
    (graph projects).hasEdge c c = true ↔ ∃ p ∈ projects, p.coordinate = c ∧ c ∈ p.dependencies := by
  have hedge : (graph projects).hasEdge c c = true ↔ Precedes projects c c := by
    rw [← edge_graph]
    exact decide_eq_true_iff
  rw [hedge]
  constructor
  · intro h
    obtain ⟨-, p, hp, rfl, hneeds⟩ := h
    -- nothing counts as its own parent
    rcases hneeds with ⟨-, hne⟩ | hself
    · exact absurd rfl hne
    · exact ⟨p, hp, rfl, hself⟩
  · intro h
    obtain ⟨p, hp, rfl, hself⟩ := h
    exact ⟨⟨p, hp, rfl⟩, p, hp, rfl, .inr hself⟩

/-! ## §3. What shows in the graph. -/

theorem map_coordinate_eq {coordinates : List Coordinate}
    (h : List.Forall₂ (SameLinks coordinates) projects projects') :
    projects.map Project.coordinate = projects'.map Project.coordinate := by
  induction h with
  | nil => rfl
  | cons hpq _ ih => rw [List.map_cons, List.map_cons, hpq.coordinate_eq, ih]

/-- Projects with the same links have them in the same order, one project after the other. -/
theorem flatMap_linksAmong_eq {coordinates : List Coordinate}
    (h : List.Forall₂ (SameLinks coordinates) projects projects') :
    (projects.flatMap fun p => (p.linksAmong coordinates).map fun c => (c, p.coordinate)) =
      projects'.flatMap fun p => (p.linksAmong coordinates).map fun c => (c, p.coordinate) := by
  induction h with
  | nil => rfl
  | cons hpq _ ih =>
    rw [List.flatMap_cons, List.flatMap_cons, hpq.coordinate_eq, hpq.linksAmong_eq, ih]

/-- Lists whose projects have the same links have the same graph. -/
theorem graph_eq_of_sameLinks (hdistinct : (projects.map Project.coordinate).Nodup)
    (h : List.Forall₂ (SameLinks (projects.map Project.coordinate)) projects projects') :
    graph projects' = graph projects := by
  have hcoordinates := map_coordinate_eq h
  apply Digraph.eq_of_lists
  · rw [vertices_graph, vertices_graph, hcoordinates]
  · rw [edges_graph_eq_flatMap hdistinct, flatMap_linksAmong_eq h, hcoordinates,
      edges_graph_eq_flatMap (hcoordinates ▸ hdistinct)]

/-- **The vertices are the coordinates of the projects, as they stand in the list.  The predecessors
of a project are its parent, unless it is not in the list or the project itself, and then those of its
dependencies that are in the list, in declaration order and without the parent; its successors are
the projects that need it, as they stand in the list.  A vertex has an edge to itself exactly if its
project depends on itself.  And projects that have the same links within the list, whatever their
other links, modules, versions and paths are, have the same graph.** -/
theorem graph_lists_neighbours (projects : List Project)
    (hdistinct : (projects.map Project.coordinate).Nodup) :
    (graph projects).vertices = projects.map Project.coordinate ∧
      (∀ p ∈ projects, (graph projects).predecessors p.coordinate =
        (p.parentAmong (projects.map Project.coordinate)).toList ++
          (p.dependenciesAmong (projects.map Project.coordinate)).filter
            fun c => p.parentAmong (projects.map Project.coordinate) ≠ some c) ∧
      (∀ p ∈ projects, (graph projects).successors p.coordinate =
        (projects.filter fun q => q.Needs p.coordinate).map Project.coordinate) ∧
      (∀ c, (graph projects).hasEdge c c = true ↔
        ∃ p ∈ projects, p.coordinate = c ∧ c ∈ p.dependencies) ∧
      ∀ projects', List.Forall₂ (SameLinks (projects.map Project.coordinate)) projects projects' →
        graph projects' = graph projects := by
  refine ⟨?_, ?_, ?_, ?_, ?_⟩
  · rw [vertices_graph, distinct_of_nodup hdistinct]
  · intro p hp
    exact predecessors_graph hdistinct hp
  · intro p hp
    exact successors_graph hdistinct hp
  · intro c
    exact hasEdge_self_iff
  · intro projects' h
    exact graph_eq_of_sameLinks hdistinct h

/-- A web interface that depends on its parent as well, a base that is its own parent, and a log
that depends on itself. -/
def site : List Project :=
  [.declare ⟨"org", "web"⟩ (some ⟨"org", "base"⟩) []
      [⟨"org", "log"⟩, ⟨"org", "base"⟩, ⟨"other", "json"⟩] none (some "web"),
    .declare ⟨"org", "base"⟩ (some ⟨"org", "base"⟩) [⟨"org", "web"⟩, ⟨"org", "log"⟩] [] none
      (some "."),
    .declare ⟨"org", "log"⟩ (some ⟨"other", "parent"⟩) [] [⟨"org", "log"⟩, ⟨"org", "base"⟩] none
      (some "log")]

/-- The site without the links that lead out of it, and without modules and paths. -/
def bareSite : List Project :=
  [.declare ⟨"org", "web"⟩ (some ⟨"org", "base"⟩) [] [⟨"org", "log"⟩, ⟨"org", "base"⟩]
      (some "2.0") none,
    .declare ⟨"org", "base"⟩ none [] [] none none,
    .declare ⟨"org", "log"⟩ none [] [⟨"org", "log"⟩, ⟨"org", "base"⟩] none none]

/-- The site: its parent link counts before the dependency on the same project, what lies outside is
left out, and only the log is linked to itself. -/
theorem graph_lists_neighbours_site :
    (site.map Project.coordinate).Nodup ∧
      List.Forall₂ (SameLinks (site.map Project.coordinate)) site bareSite ∧
      (graph site).vertices = [⟨"org", "web"⟩, ⟨"org", "base"⟩, ⟨"org", "log"⟩] ∧
      (graph site).predecessors ⟨"org", "web"⟩ = [⟨"org", "base"⟩, ⟨"org", "log"⟩] ∧
      (graph site).predecessors ⟨"org", "log"⟩ = [⟨"org", "log"⟩, ⟨"org", "base"⟩] ∧
      (graph site).successors ⟨"org", "base"⟩ = [⟨"org", "web"⟩, ⟨"org", "log"⟩] ∧
      (graph site).hasEdge ⟨"org", "log"⟩ ⟨"org", "log"⟩ = true ∧ graph bareSite = graph site := by
  have hdistinct : (site.map Project.coordinate).Nodup := by decide
  have hsame : List.Forall₂ (SameLinks (site.map Project.coordinate)) site bareSite :=
    .cons ⟨by decide, by decide, by decide⟩
      (.cons ⟨by decide, by decide, by decide⟩ (.cons ⟨by decide, by decide, by decide⟩ .nil))
  obtain ⟨hvertices, hpredecessors, hsuccessors, hself, hgraph⟩ :=
    graph_lists_neighbours site hdistinct
  refine ⟨hdistinct, hsame, hvertices, ?_, ?_, ?_, ?_, hgraph bareSite hsame⟩
  · exact (hpredecessors site[0] (by decide)).trans (by decide)
  · exact (hpredecessors site[2] (by decide)).trans (by decide)
  · exact (hsuccessors site[1] (by decide)).trans (by decide)
  · exact (hself ⟨"org", "log"⟩).2 (by decide)

end Precedence

end BuildPlan
