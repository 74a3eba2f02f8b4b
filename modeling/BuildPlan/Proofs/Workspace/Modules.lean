/-
  BuildPlan.Proofs.Workspace.Modules
  ──────────────────────────────────
  **LOADING AND NARROWING FOLLOW THE SAME MODULES.**

  Loading follows the modules of a project from directory to directory, narrowing
  follows them from coordinate to coordinate.  No two visits share a directory and no two
  projects a coordinate, so both walks are one (`Unfolds.preorder_eq`):

      loaded         root  a  b  c  d           a has the modules b and c
      narrowed to a        a  b  c

  A loaded workspace that is narrowed to a project is the block of projects from this one
  on that lie under its directory; and apart from the project of the root, each project is
  a module of one other, and only once (`load_agrees_with_narrowing`).
-/
import BuildPlan.Proofs.Reactor.Narrowing
import BuildPlan.Proofs.Workspace.Survey
import BuildPlan.Settings.Toml

namespace BuildPlan.Workspace

open Reactor (preorder preorder_cons_of_mem nodup_map_coordinate_erase)

variable {t : FileTree} {root : Path} {reactor : Reactor} {defaults : Request}
  {visited visits : List Visit} {directories directories' : List Path} {v : Visit}

/-! ## §1. The coordinates in the directories. -/

theorem coordinatesOf_append :
    coordinatesOf visited (directories ++ directories') =
      coordinatesOf visited directories ++ coordinatesOf visited directories' :=
  List.filterMap_append

theorem coordinatesOf_flatMap (visits : List Visit) :
    coordinatesOf visited (visits.flatMap Visit.children) =
      visits.flatMap fun v => coordinatesOf visited v.children :=
  List.filterMap_flatMap

/-- In a directory that was visited lies the project of the visit. -/
theorem coordinatesOf_cons (hnodup : (visited.map Visit.directory).Nodup) (hv : v ∈ visited) :
    coordinatesOf visited (v.directory :: directories) =
      v.description.coordinate :: coordinatesOf visited directories := by
  have hfind : visited.find? (fun w => w.directory = v.directory) = some v :=
    (find?_key_eq_some_iff hnodup).2 ⟨hv, rfl⟩
  unfold coordinatesOf
  rw [List.filterMap_cons, hfind]
  rfl

theorem coordinatesOf_map_directory (hnodup : (visited.map Visit.directory).Nodup)
    (hvisits : ∀ v ∈ visits, v ∈ visited) :
    coordinatesOf visited (visits.map Visit.directory) =
      visits.map fun v => v.description.coordinate := by
  induction visits with
  | nil => rfl
  | cons v visits ih =>
    obtain ⟨hv, hvisits⟩ := List.forall_mem_cons.1 hvisits
    rw [List.map_cons, coordinatesOf_cons hnodup hv, ih hvisits, List.map_cons]

section Walks

variable [Settings.Format]

/-! ## §2. One walk. -/

/-- From the coordinates of directories, narrowing finds the projects of the visits that the
directories lead to. -/
theorem Unfolds.preorder_eq (h : Unfolds t directories visits)
    (hnodup : (visited.map Visit.directory).Nodup) (hvisits : ∀ v ∈ visits, v ∈ visited)
    {fresh : List Project} (hfresh : (fresh.map Project.coordinate).Nodup)
    (hmem : ∀ v ∈ visits, v.project root visited ∈ fresh)
    (hdistinct : (visits.map (Visit.project root visited)).Nodup) :
    preorder fresh (coordinatesOf visited directories) =
      visits.map (Visit.project root visited) := by
  induction h generalizing fresh with
  | nil =>
    show preorder fresh [] = []
    rw [preorder]
  | @cons v directories visits hv h ih =>
    obtain ⟨hvisit, hvisits⟩ := List.forall_mem_cons.1 hvisits
    obtain ⟨hproject, hmem⟩ := List.forall_mem_cons.1 hmem
    obtain ⟨hnew, hdistinct⟩ := List.nodup_cons.1 hdistinct
    -- later visits come to other projects, and these are still fresh
    have hmem' : ∀ w ∈ visits, w.project root visited ∈ fresh.erase (v.project root visited) := by
      intro w hw
      have hne : w.project root visited ≠ v.project root visited := fun hwv =>
        hnew (hwv ▸ List.mem_map_of_mem hw)
      exact (List.mem_erase_of_ne hne).2 (hmem w hw)
    rw [coordinatesOf_cons hnodup hvisit]
    show preorder fresh ((v.project root visited).coordinate :: _) = _
    rw [preorder_cons_of_mem hfresh hproject]
    show _ :: preorder _ (coordinatesOf visited v.children ++ _) = _
    rw [← coordinatesOf_append, ih hvisits (nodup_map_coordinate_erase hfresh _) hmem' hdistinct]
    rfl

/-! ## §3. A loaded workspace. -/

/-- The coordinates of a loaded workspace are those that its descriptors give, in order of the
visits. -/
theorem Survey.coordinates_eq (h : Survey t root visited reactor) :
    reactor.coordinates = visited.map fun v => v.description.coordinate := by
  unfold Reactor.coordinates
  rw [h.projects_eq, List.map_map]
  rfl

/-- No two visits come to one project. -/
theorem Survey.nodup_projects (h : Survey t root visited reactor) :
    (visited.map (Visit.project root visited)).Nodup := by
  rw [← h.projects_eq]
  exact List.Nodup.of_map _ reactor.coordinates_nodup

/-- Narrowing finds the projects of the visits that the directory leads to. -/
theorem Survey.exists_narrow? (h : Survey t root visited reactor) (hv : v ∈ visited)
    (hunfolds : Unfolds t [v.directory] visits) (hvisits : visits.Sublist visited) :
    ∃ narrowed, reactor.narrow? (v.project root visited).coordinate = some narrowed ∧
      narrowed.projects = visits.map (Visit.project root visited) := by
  have hproject : ∀ w ∈ visited, w.project root visited ∈ reactor.projects := by
    intro w hw
    rw [h.projects_eq]
    exact List.mem_map_of_mem hw
  obtain ⟨narrowed, hnarrowed, hprojects⟩ := Reactor.exists_narrow?
    (Reactor.mem_iff.2 ⟨v.project root visited, hproject v hv, rfl⟩)
  refine ⟨narrowed, hnarrowed, ?_⟩
  -- the directory alone leads to the coordinate alone
  have hwalk := hunfolds.preorder_eq h.nodup (fun w hw => hvisits.subset hw)
    reactor.coordinates_nodup (fun w hw => hproject w (hvisits.subset hw))
    (h.nodup_projects.sublist (hvisits.map _))
  rw [coordinatesOf_cons h.nodup hv] at hwalk
  rw [hprojects, ← hwalk]
  rfl

/-- Narrowed to any of its projects, the workspace is the block of projects from that one on which
lie under its directory. -/
theorem Survey.exists_block (h : Survey t root visited reactor) (hunfolds : Unfolds t [root] visited)
    (hv : v ∈ visited) :
    ∃ front narrowed tail,
      reactor.narrow? (v.project root visited).coordinate = some narrowed ∧
      reactor.projects = front ++ narrowed.projects ++ tail ∧
      narrowed.projects.head? = some (v.project root visited) ∧
      ∀ w ∈ visited,
        w.project root visited ∈ narrowed.projects ↔ t.Under v.directory w.directory := by
  obtain ⟨front, block, tail, hsplit, hblock⟩ := hunfolds.exists_block hv
  have hsublist : (v :: block).Sublist visited := by
    rw [hsplit]
    exact (List.sublist_append_right _ _).trans (List.sublist_append_left _ _)
  obtain ⟨narrowed, hnarrowed, hprojects⟩ := h.exists_narrow? hv hblock hsublist
  refine ⟨front.map (Visit.project root visited), narrowed, tail.map (Visit.project root visited),
    hnarrowed, ?_, ?_, ?_⟩
  · rw [h.projects_eq, hprojects, ← List.map_append, ← List.map_append, ← hsplit]
  · rw [hprojects]
    rfl
  · intro w hw
    rw [hprojects, ← hblock.mem_iff_under (h.records w hw)]
    constructor
    · -- two visits do not come to the same project
      intro hmem
      obtain ⟨w', hw', heq⟩ := List.mem_map.1 hmem
      obtain rfl := List.inj_on_of_nodup_map h.nodup_projects (hsublist.subset hw') hw heq
      exact hw'
    · exact List.mem_map_of_mem

/-- Apart from the project of the root, each project is a module of one other, and once. -/
theorem Survey.modules_perm (h : Survey t root visited reactor) (hunfolds : Unfolds t [root] visited)
    (hv : v ∈ visited) (hroot : v.directory = root) :
    reactor.coordinates.Perm
      (v.description.coordinate :: reactor.projects.flatMap Project.modules) := by
  subst hroot
  -- every directory visited is the root or that of a module, and so are the coordinates in them
  have hperm : (coordinatesOf visited (visited.map Visit.directory)).Perm
      (coordinatesOf visited (v.directory :: visited.flatMap Visit.children)) :=
    hunfolds.directories_perm.filterMap _
  rw [coordinatesOf_map_directory h.nodup fun _ hw => hw, ← h.coordinates_eq,
    coordinatesOf_cons h.nodup hv, coordinatesOf_flatMap] at hperm
  rw [h.projects_eq, List.flatMap_map]
  exact hperm

/-- **A loaded workspace that is narrowed to its first project is what was loaded.  Narrowed to any
project, it is the block of projects from that one on which lie under its directory.  Every module of
a project is a project of the workspace, but not the first one, and is a module only once.** -/
theorem load_agrees_with_narrowing (h : load t root = .ok (reactor, defaults)) :
    ∃ visited first, Survey t root visited reactor ∧ reactor.coordinates.head? = some first ∧
      reactor.narrow? first = some reactor ∧
      (∀ v ∈ visited, ∃ front narrowed tail,
        reactor.narrow? (v.project root visited).coordinate = some narrowed ∧
        reactor.projects = front ++ narrowed.projects ++ tail ∧
        narrowed.projects.head? = some (v.project root visited) ∧
        ∀ w ∈ visited,
          w.project root visited ∈ narrowed.projects ↔ t.Under v.directory w.directory) ∧
      (∀ c ∈ reactor.projects.flatMap Project.modules, c ∈ reactor) ∧
      (reactor.projects.flatMap Project.modules).Nodup ∧
      first ∉ reactor.projects.flatMap Project.modules := by
  obtain ⟨visited, -, hunfolds, hsurvey⟩ := exists_survey h
  obtain ⟨v₀, rest, rfl, hroot⟩ := hunfolds.exists_eq_cons
  have hperm := hsurvey.modules_perm hunfolds List.mem_cons_self hroot
  have hmodules := List.nodup_cons.1 (hperm.nodup_iff.1 reactor.coordinates_nodup)
  refine ⟨v₀ :: rest, v₀.description.coordinate, hsurvey, ?_, ?_, ?_, ?_, hmodules.2, hmodules.1⟩
  · rw [hsurvey.coordinates_eq]
    rfl
  · obtain ⟨narrowed, hnarrowed, hprojects⟩ :=
      hsurvey.exists_narrow? List.mem_cons_self (hroot ▸ hunfolds) (.refl _)
    rw [← hsurvey.projects_eq] at hprojects
    rw [Reactor.eq_of_projects_eq hprojects] at hnarrowed
    exact hnarrowed
  · intro v hv
    exact hsurvey.exists_block hunfolds hv
  · intro c hc
    exact hperm.mem_iff.2 (List.mem_cons_of_mem _ hc)

end Walks

/-- A workspace whose first module has one of its own, in a directory next to it. -/
def appFiles : FileTree where
  files :=
    [(⟨["reactor.toml"]⟩,
        "[project]\nname='app'\nnamespace='org'\nmodules=['core', 'web']".toUTF8),
      (⟨["core", "reactor.toml"]⟩,
        "[project]\nname='core'\nparent='org:app'\nmodules=['../util']".toUTF8),
      (⟨["util", "reactor.toml"]⟩, "[project]\nname='util'\nparent='org:core'".toUTF8),
      (⟨["web", "reactor.toml"]⟩, "[project]\nname='web'\nparent='org:app'".toUTF8)]

/-- The app, the core and its module, the web interface. -/
def appProjects : List Project :=
  [.declare ⟨"org", "app"⟩ none [⟨"org", "core"⟩, ⟨"org", "web"⟩] [] none (some "."),
    .declare ⟨"org", "core"⟩ (some ⟨"org", "app"⟩) [⟨"org", "util"⟩] [] none (some "core"),
    .declare ⟨"org", "util"⟩ (some ⟨"org", "core"⟩) [] [] none (some "util"),
    .declare ⟨"org", "web"⟩ (some ⟨"org", "app"⟩) [] [] none (some "web")]

/-- The reactor of the app. -/
def appReactor : Reactor := ⟨appProjects, by decide⟩

/-- The law at an app with a module that has a module of its own, in a directory next to it. -/
theorem load_agrees_with_narrowing_app :
    load appFiles Path.top = .ok (appReactor, {}) ∧
      ∃ visited first, Survey appFiles Path.top visited appReactor ∧
        appReactor.coordinates.head? = some first ∧
        appReactor.narrow? first = some appReactor ∧
        (∀ v ∈ visited, ∃ front narrowed tail,
          appReactor.narrow? (v.project Path.top visited).coordinate = some narrowed ∧
          appReactor.projects = front ++ narrowed.projects ++ tail ∧
          narrowed.projects.head? = some (v.project Path.top visited) ∧
          ∀ w ∈ visited, w.project Path.top visited ∈ narrowed.projects ↔
            appFiles.Under v.directory w.directory) ∧
        (∀ c ∈ appReactor.projects.flatMap Project.modules, c ∈ appReactor) ∧
        (appReactor.projects.flatMap Project.modules).Nodup ∧
        first ∉ appReactor.projects.flatMap Project.modules := by
  have hload : load appFiles Path.top = .ok (appReactor, {}) := by decide +kernel
  exact ⟨hload, load_agrees_with_narrowing hload⟩

end BuildPlan.Workspace
