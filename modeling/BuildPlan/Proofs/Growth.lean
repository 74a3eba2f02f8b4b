/-
  BuildPlan.Proofs.Growth
  ───────────────────────
  **A NEW PROJECT THAT NONE NEEDS DOES NOT MOVE THE OTHERS.**

  The new project may be discovered anywhere among the others, and may have any parent
  and any dependencies other than itself.  Its coordinate then stands somewhere among
  the vertices, and at the end of some edges, but at the start of none:

      graph of the projects  =  graph with the new one, its coordinate taken out

  (`graph_without`).  So it is a leaf, and the others keep their order.
-/
import BuildPlan.Proofs.Digraph.Leaf
import BuildPlan.Proofs.Precedence

namespace BuildPlan.Precedence

variable {front tail : List Project} {d : Project}

/-! ## §1. The graph without the new project. -/

/-- No project of the list has the coordinate of `d`, and none of them needs it, nor does `d`. -/
structure NewLeaf (front tail : List Project) (d : Project) : Prop where
  fresh : ∀ p ∈ front ++ tail, p.coordinate ≠ d.coordinate
  unneeded : ∀ p ∈ front ++ tail, ¬ p.Needs d.coordinate
  unneeded_self : ¬ d.Needs d.coordinate

/-- Nothing needs the new project, so it precedes nothing. -/
theorem NewLeaf.not_precedes (h : NewLeaf front tail d) (c : Coordinate) :
    ¬ Precedes (front ++ d :: tail) d.coordinate c := by
  rintro ⟨-, q, hq, -, hneeds⟩
  rcases List.perm_middle.mem_iff.1 hq with _ | ⟨_, hq⟩
  · exact h.unneeded_self hneeds
  · exact h.unneeded q hq hneeds

/-- The links of another project do not change. -/
theorem NewLeaf.filter_links (h : NewLeaf front tail d) {p : Project} (hp : p ∈ front ++ tail) :
    ((p.prerequisites.filter (· ∈ (front ++ d :: tail).map Project.coordinate)).map
        fun c => (c, p.coordinate)).filter (fun e => e.1 ≠ d.coordinate ∧ e.2 ≠ d.coordinate) =
      (p.prerequisites.filter (· ∈ (front ++ tail).map Project.coordinate)).map
        fun c => (c, p.coordinate) := by
  rw [List.filter_map, List.filter_filter]
  congr 1
  apply List.filter_congr
  intro c hc
  -- a project that it names is not `d`
  have hcd : c ≠ d.coordinate := by
    rintro rfl
    exact h.unneeded p hp (Project.mem_prerequisites.1 hc)
  have hpd : p.coordinate ≠ d.coordinate := h.fresh p hp
  simp [hcd, hpd]

/-- The links of the new project all end at it. -/
theorem filter_links_self (coordinates : List Coordinate) :
    ((d.prerequisites.filter (· ∈ coordinates)).map fun c => (c, d.coordinate)).filter
      (fun e => e.1 ≠ d.coordinate ∧ e.2 ≠ d.coordinate) = [] := by
  rw [List.filter_eq_nil_iff]
  intro e he
  obtain ⟨c, -, rfl⟩ := List.mem_map.1 he
  simp

/-- Without the links that touch the new project, the links are those of the list before. -/
theorem NewLeaf.links_without (h : NewLeaf front tail d) :
    (links (front ++ d :: tail)).filter
        (fun e => e.1 ≠ d.coordinate ∧ e.2 ≠ d.coordinate) = links (front ++ tail) := by
  unfold links
  rw [List.filter_flatMap, List.flatMap_append, List.flatMap_cons, filter_links_self,
    List.nil_append, ← List.flatMap_append]
  exact List.flatMap_congr fun p hp => h.filter_links hp

theorem NewLeaf.coordinates_without (h : NewLeaf front tail d) :
    ((front ++ d :: tail).map Project.coordinate).filter (· ≠ d.coordinate) =
      (front ++ tail).map Project.coordinate := by
  rw [List.map_append, List.map_cons, List.filter_append, List.filter_cons_of_neg (by simp),
    ← List.filter_append, ← List.map_append, List.filter_eq_self]
  intro c hc
  obtain ⟨p, hp, rfl⟩ := List.mem_map.1 hc
  simpa using h.fresh p hp

/-- **The graph of the other projects is the graph of all of them without the new one.** -/
theorem NewLeaf.graph_without (h : NewLeaf front tail d) :
    (graph (front ++ d :: tail)).without d.coordinate = graph (front ++ tail) := by
  apply Digraph.eq_of_lists
  · show (graph (front ++ d :: tail)).vertices.filter (· ≠ d.coordinate) = _
    rw [vertices_graph, vertices_graph, filter_distinct, h.coordinates_without]
  · show (graph (front ++ d :: tail)).edges.filter
      (fun e => e.1 ≠ d.coordinate ∧ e.2 ≠ d.coordinate) = _
    rw [edges_graph, edges_graph, filter_distinct, h.links_without]

/-- No edge of the graph leaves the new project. -/
theorem NewLeaf.successors_eq_nil (h : NewLeaf front tail d) :
    (graph (front ++ d :: tail)).successors d.coordinate = [] := by
  rw [List.eq_nil_iff_forall_not_mem]
  intro c hc
  exact h.not_precedes c (edge_graph.1 (Digraph.mem_successors.1 hc))

/-! ## §2. The law of growth. -/

/-- **A project with a new coordinate that no project needs, put anywhere among projects without a
cycle, closes no cycle, and the order of the others is the order of all with the new one taken
out.** -/
theorem buildOrder_survives_growth (front tail : List Project) (d : Project)
    (hacyclic : ∀ v, ¬ (graph (front ++ tail)).Leads v v)
    (hfresh : d.coordinate ∉ (front ++ tail).map Project.coordinate)
    (hunneeded : ∀ p ∈ front ++ tail,
      p.parent ≠ some d.coordinate ∧ d.coordinate ∉ p.dependencies)
    (hself : d.coordinate ∉ d.dependencies) :
    (∀ v, ¬ (graph (front ++ d :: tail)).Leads v v) ∧
      ∃ order, (graph (front ++ d :: tail)).buildOrder = .ok order ∧ d.coordinate ∈ order ∧
        (graph (front ++ tail)).buildOrder = .ok (order.filter (· ≠ d.coordinate)) := by
  have hleaf : NewLeaf front tail d := by
    refine ⟨?_, ?_, ?_⟩
    · intro p hp heq
      exact hfresh (List.mem_map.2 ⟨p, hp, heq⟩)
    · rintro p hp (⟨hparent, -⟩ | hdependency)
      · exact (hunneeded p hp).1 hparent
      · exact (hunneeded p hp).2 hdependency
    · rintro (⟨-, hne⟩ | hdependency)
      · exact hne rfl
      · exact hself hdependency
  have hend := hleaf.successors_eq_nil
  rw [← hleaf.graph_without] at hacyclic ⊢
  obtain ⟨order, horder, hwithout⟩ := Digraph.buildOrder_without hend hacyclic
  have hmem : d.coordinate ∈ (graph (front ++ d :: tail)).vertices :=
    mem_vertices_graph.2 (by simp)
  exact ⟨Digraph.acyclic_of_without hend hacyclic, order, horder,
    ((Digraph.isBuildOrder_of_buildOrder horder).mem_iff _).2 hmem, hwithout⟩

/-- A program and the core that it needs. -/
def program : List Project :=
  [.declare ⟨"org", "program"⟩ (some ⟨"org", "parent"⟩) [] [⟨"org", "core"⟩] none none,
    .declare ⟨"org", "core"⟩ (some ⟨"org", "parent"⟩) [] [] none none]

/-- The parent of the program and the core, and a project apart. -/
def surroundings : List Project :=
  [.declare ⟨"org", "parent"⟩ none [] [] none none, .declare ⟨"org", "apart"⟩ none [] [] none none]

/-- It needs the core; the core is visited first, and leads to it. -/
def handbook : Project :=
  .declare ⟨"org", "handbook"⟩ (some ⟨"org", "parent"⟩) [] [⟨"org", "core"⟩] none none

/-- A handbook of the core, put into the middle of the list, is built behind the core, and nothing
else moves. -/
theorem buildOrder_survives_growth_handbook :
    (∀ v, ¬ (graph (program ++ surroundings)).Leads v v) ∧
      (graph (program ++ handbook :: surroundings)).buildOrder =
        .ok [⟨"org", "apart"⟩, ⟨"org", "parent"⟩, ⟨"org", "core"⟩, ⟨"org", "handbook"⟩,
          ⟨"org", "program"⟩] ∧
      (graph (program ++ surroundings)).buildOrder =
        .ok [⟨"org", "apart"⟩, ⟨"org", "parent"⟩, ⟨"org", "core"⟩, ⟨"org", "program"⟩] := by
  have hacyclic : (graph (program ++ surroundings)).Acyclic :=
    Digraph.findCycle_eq_none_iff.1 (by cbv)
  obtain ⟨-, order, horder, -, hwithout⟩ := buildOrder_survives_growth program surroundings handbook
    hacyclic (by decide) (by decide) (by decide)
  have hgrown : (graph (program ++ handbook :: surroundings)).buildOrder =
      .ok [⟨"org", "apart"⟩, ⟨"org", "parent"⟩, ⟨"org", "core"⟩, ⟨"org", "handbook"⟩,
        ⟨"org", "program"⟩] := by cbv
  rw [hgrown] at horder
  injection horder with horder
  subst horder
  exact ⟨hacyclic, hgrown, hwithout⟩

end BuildPlan.Precedence
