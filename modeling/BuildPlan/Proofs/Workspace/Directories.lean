/-
  BuildPlan.Proofs.Workspace.Directories
  ──────────────────────────────────────
  **ONE VISIT, ONE PROJECT AND ONE PATH FOR EACH DIRECTORY.**

  Entries of modules may climb, be absolute, repeat or lead back to where they are
  written.  Still no directory is visited twice, a second way to one is a defect, and
  loading ends, since each visit is to a descriptor of its own.  The projects of a
  workspace that loads stand for the directories under its root one by one, and the path
  of a project leads from the root to its directory (`load_visits_each_directory_once`).
-/
import BuildPlan.Proofs.Workspace.Survey
import BuildPlan.Proofs.Workspace.Way
import BuildPlan.Settings.Toml

namespace BuildPlan.Workspace

variable {t : FileTree} {root d : Path} {reactor : Reactor} {visited : List Visit} {v : Visit}

/-! ## §1. Where modules and projects lie. -/

theorem exists_resolve_of_mem_children (h : d ∈ v.children) :
    ∃ text, v.directory.resolve text = d := by
  obtain ⟨located, hlocated, hd⟩ := List.mem_filterMap.1 h
  obtain ⟨entry, -, rfl⟩ := List.mem_map.1 hlocated
  cases hlocate : locate v.directory entry with
  | error e =>
    rw [hlocate] at hd
    exact absurd hd (by simp [Except.toOption])
  | ok module =>
    rw [hlocate] at hd
    injection hd with hd
    obtain ⟨text, -, -, htext⟩ := locate_eq_ok_iff.1 hlocate
    exact ⟨text, htext.trans hd⟩

theorem path_project (root : Path) (visited : List Visit) (v : Visit) :
    (v.project root visited).path = some (v.directory.relativeTo root) := rfl

section Laws

variable [Settings.Format]

/-- What lies under a path of names is a path of names. -/
theorem FileTree.Under.proper (h : t.Under root d) (hroot : root.Proper) : d.Proper := by
  induction h with
  | refl => exact hroot
  | tail _ hmodule ih =>
    obtain ⟨v, -, rfl, hchild⟩ := hmodule
    obtain ⟨text, rfl⟩ := exists_resolve_of_mem_children hchild
    exact ih.resolve text

/-- From a root that is a path of names, all visits are to paths of names. -/
theorem Unfolds.proper (h : Unfolds t [root] visited) (hroot : root.Proper) :
    ∀ v ∈ visited, v.directory.Proper := by
  intro v hv
  obtain ⟨d, hd, hunder⟩ := h.exists_under hv
  rw [List.mem_singleton.1 hd] at hunder
  exact hunder.proper hroot

/-! ## §2. The paths of the projects. -/

/-- No two projects have the same path. -/
theorem Survey.nodup_paths (h : Survey t root visited reactor)
    (hproper : ∀ v ∈ visited, v.directory.Proper) : (reactor.projects.map Project.path).Nodup := by
  rw [h.projects_eq, List.map_map]
  refine List.Nodup.map_on ?_ (h.nodup.of_map _)
  intro v hv w hw hpath
  injection hpath with hpath
  -- the same path leads to the same directory, and that is visited once
  exact List.inj_on_of_nodup_map h.nodup hv hw
    (Path.relativeTo_inj (hproper v hv) (hproper w hw) hpath)

/-! ## §3. The law of the visits. -/

/-- **Loading comes to an end: a tour of the directories makes no more moves than there are files.
No directory is visited twice, and one that is reached again makes a defect.  The projects of a
workspace that loads are one for each directory under its root; the path of each leads from the root
to its directory, and no two have the same path.** -/
theorem load_visits_each_directory_once (t : FileTree) {root : Path} (hroot : root.Proper) :
    Loading t root (load t root) ∧
      (∀ tour : Nat → Tour, tour 0 = .start root →
        ∃ n ≤ t.files.length, ¬ Tour.Move t (tour n) (tour (n + 1))) ∧
      (∀ s, Tour.Reached t root s → (s.visited.map Visit.directory).Nodup) ∧
      (∀ defaults s d rest, defaultsOf t root = .ok defaults → Tour.Reached t root s →
        s.pending = .ok d :: rest → d ∈ s.visited.map Visit.directory →
          load t root = .error (.defect (.listedTwice d.text))) ∧
      ∀ reactor defaults, load t root = .ok (reactor, defaults) →
        ∃ visited, Tour.Reached t root ⟨visited, []⟩ ∧
          (∀ d, d ∈ visited.map Visit.directory ↔ t.Under root d) ∧
          reactor.projects = visited.map (Visit.project root visited) ∧
          (∀ v ∈ visited, ∃ path, (v.project root visited).path = some path ∧
            root.resolve path = v.directory) ∧
          (reactor.projects.map Project.path).Nodup := by
  refine ⟨loading_load t root, fun tour => Tour.exists_not_move, fun s hs => hs.nodup, ?_, ?_⟩
  · intro defaults s d rest hdefaults hs hpending hd
    refine load_of_ends hdefaults hs ?_
    obtain ⟨visited, pending⟩ := s
    obtain rfl : pending = .ok d :: rest := hpending
    exact .again hd
  · intro reactor defaults h
    obtain ⟨visited, hvisited, hunfolds, hsurvey⟩ := exists_survey h
    have hunder : ∀ d, d ∈ visited.map Visit.directory ↔ t.Under root d := by
      intro d
      constructor
      · intro hd
        obtain ⟨v, hv, rfl⟩ := List.mem_map.1 hd
        exact (hunfolds.mem_iff_under (hsurvey.records v hv)).1 hv
      · exact hunfolds.mem_of_under List.mem_cons_self
    have hproper : ∀ v ∈ visited, v.directory.Proper := by
      intro v hv
      exact ((hunder _).1 (List.mem_map_of_mem hv)).proper hroot
    refine ⟨visited, hvisited, hunder, hsurvey.projects_eq, ?_, hsurvey.nodup_paths hproper⟩
    intro v hv
    exact ⟨_, path_project root visited v, Path.resolve_relativeTo (hproper v hv) root⟩

end Laws

/-- A shop with a module in its directory, one next to it and one at an absolute place. -/
def shopFiles : FileTree where
  files :=
    [(⟨["shop", "reactor.toml"]⟩,
        "[project]\nname='shop'\nnamespace='org'\nmodules=['./cart', '../tax', '/depot']".toUTF8),
      (⟨["shop", "cart", "reactor.toml"]⟩, "[project]\nname='cart'\nparent='org:shop'".toUTF8),
      (⟨["tax", "reactor.toml"]⟩, "[project]\nname='tax'\nparent='org:shop'".toUTF8),
      (⟨["depot", "reactor.toml"]⟩, "[project]\nname='depot'\nparent='org:shop'".toUTF8)]

/-- The shop and its modules. -/
def shopReactor : Reactor where
  projects :=
    [.declare ⟨"org", "shop"⟩ none [⟨"org", "cart"⟩, ⟨"org", "tax"⟩, ⟨"org", "depot"⟩] [] none
        (some "."),
      .declare ⟨"org", "cart"⟩ (some ⟨"org", "shop"⟩) [] [] none (some "cart"),
      .declare ⟨"org", "tax"⟩ (some ⟨"org", "shop"⟩) [] [] none (some "../tax"),
      .declare ⟨"org", "depot"⟩ (some ⟨"org", "shop"⟩) [] [] none (some "../depot")]
  coordinates_nodup := by decide

/-- The law at a shop whose modules lie below it, next to it and at an absolute place. -/
theorem load_visits_each_directory_once_shop :
    Path.Proper ⟨["shop"]⟩ ∧ load shopFiles ⟨["shop"]⟩ = .ok (shopReactor, {}) ∧
      ∃ visited, Tour.Reached shopFiles ⟨["shop"]⟩ ⟨visited, []⟩ ∧
        (∀ d, d ∈ visited.map Visit.directory ↔ shopFiles.Under ⟨["shop"]⟩ d) ∧
        shopReactor.projects = visited.map (Visit.project ⟨["shop"]⟩ visited) ∧
        (∀ v ∈ visited, ∃ path, (v.project ⟨["shop"]⟩ visited).path = some path ∧
          Path.resolve ⟨["shop"]⟩ path = v.directory) ∧
        (shopReactor.projects.map Project.path).Nodup := by
  have hroot : Path.Proper ⟨["shop"]⟩ := by
    intro s hs
    rw [List.mem_singleton.1 hs]
    constructor <;> decide
  have hload : load shopFiles ⟨["shop"]⟩ = .ok (shopReactor, {}) := by decide +kernel
  obtain ⟨-, -, -, -, hloaded⟩ := load_visits_each_directory_once shopFiles hroot
  exact ⟨hroot, hload, hloaded _ _ hload⟩

/-- Two directories that name each other. -/
def ringFiles : FileTree where
  files :=
    [(⟨["reactor.toml"]⟩, "[project]\nname='app'\nnamespace='org'\nmodules=['core']".toUTF8),
      (⟨["core", "reactor.toml"]⟩,
        "[project]\nname='core'\nnamespace='org'\nmodules=['..']".toUTF8)]

example : load ringFiles Path.top = .error (.defect (.listedTwice "/")) := by decide +kernel

end BuildPlan.Workspace
