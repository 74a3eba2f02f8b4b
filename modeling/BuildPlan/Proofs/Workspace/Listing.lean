/-
  BuildPlan.Proofs.Workspace.Listing
  ──────────────────────────────────
  **THE LIST OF PROJECTS AND THE GRAPH ON DIRECT PREREQUISITES.**

  Behind each project the list names what has to come before it, and so do the edges of the
  graph that lead to it.  Both start from the same links and leave out those that lead out
  of the workspace.  They part where a project is its own parent:

      parent            listed                 edge
      another project   parent, dependencies   parent, dependencies
      elsewhere         dependencies           dependencies
      itself            itself, dependencies   dependencies

  So what is listed of a project is, repeats dropped, what precedes it in the graph, unless
  it is its own parent and does not depend on itself as well (`listing_agrees_iff`).
-/
import BuildPlan.Command.Run
import BuildPlan.Proofs.Links
import BuildPlan.Settings.Toml

namespace BuildPlan.Command

variable {reactor : Reactor} {p : Project}

/-! ## §1. What is listed. -/

/-- The coordinates that the list shows behind a project. -/
def listedCoordinates (reactor : Reactor) (p : Project) : List Coordinate :=
  (listedPrerequisites reactor p).map Prerequisite.coordinate

/-- The list names the parent and the dependencies that the reactor has, the project itself not left
out. -/
theorem listedCoordinates_eq (reactor : Reactor) (p : Project) :
    listedCoordinates reactor p =
      (p.parent.toList ++ p.dependencies).filter (· ∈ reactor.coordinates) := by
  have hparent : ((p.parent.filter (· ∈ reactor)).map fun c => Prerequisite.mk c true).toList.map
      Prerequisite.coordinate = p.parent.toList.filter (· ∈ reactor.coordinates) := by
    rw [← Option.toList_map, Option.map_map, ← Option.toList_filter]
    exact congrArg Option.toList (congrFun Option.map_id _)
  unfold listedCoordinates listedPrerequisites
  rw [List.map_append, hparent, List.map_map, List.filter_append]
  congr 1
  exact List.map_id _

/-! ## §2. What is listed and what comes before. -/

/-- A project that is not its own parent is listed with its links. -/
theorem distinct_listedCoordinates (h : p.parent ≠ some p.coordinate) :
    distinct (listedCoordinates reactor p) = p.linksAmong reactor.coordinates := by
  have hparent : p.parent.filter (· ≠ p.coordinate) = p.parent := by
    cases hp : p.parent with
    | none => rfl
    | some c =>
      have hne : c ≠ p.coordinate := fun hc => h (hp.trans (congrArg some hc))
      exact Option.filter_some_pos (decide_eq_true hne)
  rw [← Project.distinct_prerequisites, listedCoordinates_eq]
  unfold Project.prerequisites
  rw [hparent]

/-- A project that is its own parent is listed with itself, and then with its links. -/
theorem listedCoordinates_of_parent (h : p.parent = some p.coordinate) (hp : p ∈ reactor.projects) :
    listedCoordinates reactor p = p.coordinate :: p.linksAmong reactor.coordinates := by
  have hmem : p.coordinate ∈ reactor.coordinates := List.mem_map_of_mem hp
  have hnone : p.parentAmong reactor.coordinates = none := by
    unfold Project.parentAmong
    rw [h]
    simp
  have hlinks : p.linksAmong reactor.coordinates = p.dependenciesAmong reactor.coordinates := by
    unfold Project.linksAmong
    rw [hnone]
    simp
  rw [listedCoordinates_eq, hlinks, h]
  simp [hmem, Project.dependenciesAmong]

/-- A project is listed with its links and nothing else unless it is its own parent and does not
depend on itself. -/
theorem listed_iff_linked_iff (hp : p ∈ reactor.projects) :
    (∀ c, c ∈ listedCoordinates reactor p ↔ c ∈ p.linksAmong reactor.coordinates) ↔
      (p.parent = some p.coordinate → p.coordinate ∈ p.dependencies) := by
  have hmem : p.coordinate ∈ reactor.coordinates := List.mem_map_of_mem hp
  have hself : p.coordinate ∈ p.linksAmong reactor.coordinates ↔ p.coordinate ∈ p.dependencies := by
    rw [Project.mem_linksAmong_iff]
    simp [Project.Needs, hmem]
  by_cases hparent : p.parent = some p.coordinate
  · rw [listedCoordinates_of_parent hparent hp]
    constructor
    · intro h _
      exact hself.1 ((h p.coordinate).1 List.mem_cons_self)
    · intro h c
      rw [List.mem_cons]
      refine or_iff_right_of_imp ?_
      rintro rfl
      exact hself.2 (h hparent)
  · refine iff_of_true ?_ fun h => absurd h hparent
    intro c
    rw [← mem_distinct, distinct_listedCoordinates hparent]

end BuildPlan.Command

namespace BuildPlan.Workspace

open Command (listedCoordinates)

variable {t : FileTree} {root : Path} {reactor : Reactor} {defaults : Request} {p : Project}

section Laws

variable [Settings.Format]

/-! ## §3. The law of the list. -/

/-- A workspace that loads is shown with one line for each project. -/
theorem execute_discover (h : load t root = .ok (reactor, defaults)) (verbose : Bool) :
    Command.execute t root verbose .discover = .finished
      { exitCode := 0
        out := Command.discoverHeading ++
          Command.lines (reactor.projects.map (Command.projectLine reactor)) } := by
  simp only [Command.execute, h]
  rfl

/-- **The list of a workspace shows every project.  Behind one that is not its own parent it names,
repeats dropped, what precedes the project in the graph, in the same order; behind one that is its
own parent it names the project itself in addition.  So it names the same as the graph unless a
project is its own parent and does not depend on itself.** -/
theorem listing_agrees_iff (h : load t root = .ok (reactor, defaults)) :
    (∀ verbose, Command.execute t root verbose .discover = .finished
      { exitCode := 0
        out := Command.discoverHeading ++
          Command.lines (reactor.projects.map (Command.projectLine reactor)) }) ∧
      ∀ p ∈ reactor.projects,
        (p.parent ≠ some p.coordinate → distinct (listedCoordinates reactor p) =
          (Precedence.graph reactor.projects).predecessors p.coordinate) ∧
        (p.parent = some p.coordinate → listedCoordinates reactor p =
          p.coordinate :: (Precedence.graph reactor.projects).predecessors p.coordinate) ∧
        ((∀ c, c ∈ listedCoordinates reactor p ↔
            c ∈ (Precedence.graph reactor.projects).predecessors p.coordinate) ↔
          (p.parent = some p.coordinate → p.coordinate ∈ p.dependencies)) := by
  refine ⟨execute_discover h, ?_⟩
  intro p hp
  rw [Precedence.predecessors_graph reactor.coordinates_nodup hp]
  refine ⟨Command.distinct_listedCoordinates, ?_, ?_⟩
  · intro hparent
    exact Command.listedCoordinates_of_parent hparent hp
  · exact Command.listed_iff_linked_iff hp

end Laws

/-- A workspace whose root is its own parent, and whose module depends on its parent and on a
project elsewhere. -/
def hearthFiles : FileTree where
  files :=
    [(⟨["reactor.toml"]⟩,
        "[project]\nname='core'\nnamespace='org'\nparent='org:core'\nmodules=['web']\n".toUTF8),
      (⟨["web", "reactor.toml"]⟩,
        "[project]\nname='web'\nparent='org:core'\ndependencies=['org:core','a:b']\n".toUTF8)]

/-- The projects of that workspace. -/
def hearthReactor : Reactor where
  projects :=
    [.declare ⟨"org", "core"⟩ (some ⟨"org", "core"⟩) [⟨"org", "web"⟩] [] none (some "."),
      .declare ⟨"org", "web"⟩ (some ⟨"org", "core"⟩) [] [⟨"org", "core"⟩, ⟨"a", "b"⟩] none
        (some "web")]
  coordinates_nodup := by decide

theorem load_hearthFiles : load hearthFiles Path.top = .ok (hearthReactor, {}) := by
  decide +kernel

/-- The law at a root that is its own parent, and at a module that depends on its parent. -/
theorem listing_agrees_iff_hearth :
    load hearthFiles Path.top = .ok (hearthReactor, {}) ∧
      listedCoordinates hearthReactor hearthReactor.projects[0] = [⟨"org", "core"⟩] ∧
      (Precedence.graph hearthReactor.projects).predecessors ⟨"org", "web"⟩ = [⟨"org", "core"⟩] ∧
      ∀ c, c ∈ listedCoordinates hearthReactor hearthReactor.projects[1] ↔
        c ∈ (Precedence.graph hearthReactor.projects).predecessors ⟨"org", "web"⟩ := by
  obtain ⟨-, hlaw⟩ := listing_agrees_iff load_hearthFiles
  obtain ⟨-, hcore, -⟩ := hlaw hearthReactor.projects[0] (by decide)
  obtain ⟨hweb, -, hsame⟩ := hlaw hearthReactor.projects[1] (by decide)
  exact ⟨load_hearthFiles, (hcore rfl).trans (by decide),
    (hweb (by decide)).symm.trans (by decide), hsame.2 (by decide)⟩

/-- A workspace of one project that is its own parent. -/
def loneFiles : FileTree where
  files :=
    [(⟨["reactor.toml"]⟩,
        "[project]\nname = 'core'\nnamespace = 'org'\nparent = 'org:core'\n".toUTF8)]

/-- The project of that workspace. -/
def loneReactor : Reactor where
  projects := [.declare ⟨"org", "core"⟩ (some ⟨"org", "core"⟩) [] [] none (some ".")]
  coordinates_nodup := by decide

theorem load_loneFiles : load loneFiles Path.top = .ok (loneReactor, {}) := by
  decide +kernel

/-- A project that is its own parent is listed as what has to come before it, and nothing comes
before it in the graph. -/
theorem own_parent_is_listed :
    load loneFiles Path.top = .ok (loneReactor, {}) ∧
      Command.execute loneFiles Path.top false .discover = .finished
        { exitCode := 0
          out := Command.discoverHeading ++ "  org:core (.) → [org:core (parent)]\n" } ∧
      ∃ p ∈ loneReactor.projects, p.coordinate ∈ listedCoordinates loneReactor p ∧
        p.coordinate ∉ (Precedence.graph loneReactor.projects).predecessors p.coordinate := by
  have hlines : Command.lines (loneReactor.projects.map (Command.projectLine loneReactor)) =
      "  org:core (.) → [org:core (parent)]\n" := by decide +kernel
  refine ⟨load_loneFiles, ?_, by decide⟩
  rw [execute_discover load_loneFiles, hlines]

end BuildPlan.Workspace
