/-
  BuildPlan.Proofs.Workspace.Survey
  ─────────────────────────────────
  **WHAT LOADING A WORKSPACE COMES ACROSS.**

  Loading keeps one row of directories that are still to visit, and puts the modules of
  a visit in front of it.  `Unfolds` says the same without the row: each directory is
  followed by all that its modules lead to, then comes the next one.  Three views of the
  visits follow:

      exists_block       the visits that a directory leads to stand together
      mem_iff_under      they are the visits to the directories under it
      directories_perm   apart from the root, each directory is that of one module

  Loading ends in one of four ways (`Loading`, `loading_load`).  A workspace that loads
  has a survey: the visits, no two of them to one directory, and one project for each
  (`exists_survey`).
-/
import BuildPlan.Proofs.Reactor.Gathering
import BuildPlan.Proofs.Workspace.Tour

namespace BuildPlan.Workspace

/-! ## §1. The visits. -/

/-- Of what a visit leads to, its modules are the directories. -/
theorem filterMap_toOption_pending (v : Visit) (pending : List (Except Trouble Path)) :
    (v.pending ++ pending).filterMap Except.toOption =
      v.children ++ pending.filterMap Except.toOption := by
  unfold Visit.pending Visit.children
  rw [List.filterMap_append, List.filterMap_append, List.append_assoc]
  congr 1
  split <;> rfl

variable [Settings.Format]

/-- Visiting the directories in turn, and behind each of them all that its modules lead to, comes to
the visits. -/
inductive Unfolds (t : FileTree) : List Path → List Visit → Prop
  | nil : Unfolds t [] []
  | cons {v : Visit} {directories : List Path} {visits : List Visit} (hv : t.Records v)
      (h : Unfolds t (v.children ++ directories) visits) :
      Unfolds t (v.directory :: directories) (v :: visits)

/-- What a tour that is left with nothing to visit adds to the visits. -/
theorem exists_unfolds {t : FileTree} {s : Tour} {result : List Visit}
    (h : Relation.ReflTransGen (Tour.Move t) s ⟨result, []⟩) :
    ∃ visits, result = s.visited ++ visits ∧
      Unfolds t (s.pending.filterMap Except.toOption) visits := by
  induction h using Relation.ReflTransGen.head_induction_on with
  | refl => exact ⟨[], by rw [List.append_nil], .nil⟩
  | head hmove _ ih =>
    obtain ⟨hnew, hv⟩ := hmove
    obtain ⟨visits, hresult, hunfolds⟩ := ih
    rw [filterMap_toOption_pending] at hunfolds
    refine ⟨_ :: visits, ?_, .cons hv hunfolds⟩
    rw [hresult, List.append_assoc]
    rfl

/-! ## §2. What the visits are made of. -/

namespace Unfolds

variable {t : FileTree} {directories directories' : List Path} {visits : List Visit} {v w : Visit}

/-- Each visit is what the descriptor of its directory says. -/
theorem records (h : Unfolds t directories visits) : ∀ v ∈ visits, t.Records v := by
  induction h with
  | nil => simp
  | cons hv _ ih => exact List.forall_mem_cons.2 ⟨hv, ih⟩

/-- The first directory is visited first. -/
theorem exists_eq_cons {d : Path} (h : Unfolds t (d :: directories) visits) :
    ∃ v rest, visits = v :: rest ∧ v.directory = d := by
  cases h with
  | cons => exact ⟨_, _, rfl, rfl⟩

/-- The visits are split as the directories are. -/
theorem exists_append (h : Unfolds t (directories ++ directories') visits) :
    ∃ visits₁ visits₂, visits = visits₁ ++ visits₂ ∧ Unfolds t directories visits₁ ∧
      Unfolds t directories' visits₂ := by
  generalize hall : directories ++ directories' = all at h
  induction h generalizing directories with
  | nil =>
    obtain ⟨rfl, rfl⟩ := List.append_eq_nil_iff.1 hall
    exact ⟨[], [], rfl, .nil, .nil⟩
  | @cons v rest visits hv h ih =>
    cases directories with
    | nil =>
      obtain rfl : directories' = v.directory :: rest := hall
      exact ⟨[], v :: visits, rfl, .nil, .cons hv h⟩
    | cons d directories =>
      injection hall with hd hrest
      subst hd hrest
      -- behind the first visit, its modules stand in front of the other directories
      obtain ⟨visits₁, visits₂, rfl, h₁, h₂⟩ := ih (List.append_assoc _ _ _)
      exact ⟨v :: visits₁, visits₂, rfl, .cons hv h₁, h₂⟩

/-- From each visit on, there is a block of visits that its directory alone leads to. -/
theorem exists_block (h : Unfolds t directories visits) (hv : v ∈ visits) :
    ∃ front block tail, visits = front ++ v :: block ++ tail ∧
      Unfolds t [v.directory] (v :: block) := by
  induction h with
  | nil => exact absurd hv (by simp)
  | @cons w directories visits hw h ih =>
    rcases List.mem_cons.1 hv with rfl | hv
    · -- what the modules of the first visit lead to comes before the rest
      obtain ⟨block, tail, rfl, hblock, -⟩ := h.exists_append
      refine ⟨[], block, tail, rfl, .cons hw ?_⟩
      rw [List.append_nil]
      exact hblock
    · obtain ⟨front, block, tail, rfl, hblock⟩ := ih hv
      exact ⟨w :: front, block, tail, rfl, hblock⟩

/-- Each directory that is visited was given, or is that of a module of one visit. -/
theorem directories_perm (h : Unfolds t directories visits) :
    (visits.map Visit.directory).Perm (directories ++ visits.flatMap Visit.children) := by
  induction h with
  | nil => exact .refl _
  | @cons v directories visits hv h ih =>
    rw [List.map_cons, List.flatMap_cons, List.cons_append]
    refine (ih.trans ?_).cons v.directory
    -- the modules of this visit move behind the directories that were there before
    rw [List.append_assoc]
    exact List.perm_append_comm_assoc _ _ _

/-- Every visit is to a directory under one of those given. -/
theorem exists_under (h : Unfolds t directories visits) (hw : w ∈ visits) :
    ∃ d ∈ directories, t.Under d w.directory := by
  induction h with
  | nil => exact absurd hw (by simp)
  | @cons v directories visits hv h ih =>
    rcases List.mem_cons.1 hw with rfl | hw
    · exact ⟨w.directory, List.mem_cons_self, .refl⟩
    · obtain ⟨d, hd, hunder⟩ := ih hw
      rcases List.mem_append.1 hd with hd | hd
      · exact ⟨v.directory, List.mem_cons_self, .head ⟨v, hv, rfl, hd⟩ hunder⟩
      · exact ⟨d, List.mem_cons_of_mem _ hd, hunder⟩

/-- Every directory under one of those given is visited. -/
theorem mem_of_under (h : Unfolds t directories visits) {d d' : Path} (hd : d ∈ directories)
    (hunder : t.Under d d') : d' ∈ visits.map Visit.directory := by
  have hperm := h.directories_perm
  induction hunder with
  | refl => exact hperm.mem_iff.2 (List.mem_append_left _ hd)
  | tail _ hmodule ih =>
    obtain ⟨v, hv, rfl, hchild⟩ := hmodule
    obtain ⟨w, hw, hwv⟩ := List.mem_map.1 ih
    -- the visit to a directory says what its descriptor says
    obtain rfl := (h.records w hw).unique hv hwv
    exact hperm.mem_iff.2 (List.mem_append_right _ (List.mem_flatMap.2 ⟨w, hw, hchild⟩))

/-- The visits that a directory leads to are those under it. -/
theorem mem_iff_under {d : Path} (h : Unfolds t [d] visits) (hw : t.Records w) :
    w ∈ visits ↔ t.Under d w.directory := by
  constructor
  · intro hmem
    obtain ⟨d', hd', hunder⟩ := h.exists_under hmem
    exact List.mem_singleton.1 hd' ▸ hunder
  · intro hunder
    obtain ⟨v, hv, hvw⟩ := List.mem_map.1 (h.mem_of_under List.mem_cons_self hunder)
    exact (h.records v hv).unique hw hvw ▸ hv

end Unfolds

/-! ## §3. How loading ends. -/

/-- The default request of the workspace in the given directory. -/
def defaultsOf (t : FileTree) (root : Path) : Except Trouble Request := do
  let entries ← descriptorAt t root
  (Settings.defaultRequest (root.child descriptorName).text entries).mapError .ofRefusal

/-- The defaults are read first, then the directories are explored, and then the projects are put
together. -/
theorem load_eq (t : FileTree) (root : Path) :
    load t root = (do
      let defaults ← defaultsOf t root
      let visited ← explore t.files [] [.ok root]
      let reactor ← (Reactor.ofList (visited.map (Visit.project root visited))).mapError .fault
      return (reactor, defaults)) := by
  unfold load defaultsOf
  cases descriptorAt t root <;> rfl

/-- How loading the workspace ends. -/
inductive Loading (t : FileTree) (root : Path) : Except Trouble (Reactor × Request) → Prop
  /-- The defaults cannot be read. -/
  | unread {e : Trouble} (hdefaults : defaultsOf t root = .error e) : Loading t root (.error e)
  /-- The tour of the directories does not come to its last one. -/
  | stopped {defaults : Request} {s : Tour} {e : Trouble}
      (hdefaults : defaultsOf t root = .ok defaults) (hs : Tour.Reached t root s)
      (hend : Tour.Ends t s (.error e)) : Loading t root (.error e)
  /-- Two projects share a coordinate. -/
  | clash {defaults : Request} {visited : List Visit} {p q : Project}
      (hdefaults : defaultsOf t root = .ok defaults)
      (hvisited : Tour.Reached t root ⟨visited, []⟩)
      (hbefore : StandsBefore (visited.map (Visit.project root visited)) p q)
      (hpq : p.coordinate = q.coordinate) :
      Loading t root (.error (.fault (.duplicate q.coordinate [p.path, q.path])))
  /-- There is one project for each visit, in the order of the visits. -/
  | loaded {defaults : Request} {visited : List Visit} {reactor : Reactor}
      (hdefaults : defaultsOf t root = .ok defaults)
      (hvisited : Tour.Reached t root ⟨visited, []⟩)
      (hprojects : reactor.projects = visited.map (Visit.project root visited)) :
      Loading t root (.ok (reactor, defaults))

/-- **Loading ends, and in one of the four ways.** -/
theorem loading_load (t : FileTree) (root : Path) : Loading t root (load t root) := by
  rw [load_eq]
  cases hdefaults : defaultsOf t root with
  | error e => exact .unread hdefaults
  | ok defaults =>
    obtain ⟨s, hs, hend⟩ := Tour.exists_reached_end t root
    cases hexplore : explore t.files [] [.ok root] with
    | error e =>
      rw [hexplore] at hend
      exact .stopped hdefaults hs hend
    | ok visited =>
      rw [hexplore] at hend
      have hvisited : Tour.Reached t root ⟨visited, []⟩ := by
        cases hend
        exact hs
      by_cases hclash : Reactor.Clash (visited.map (Visit.project root visited))
      · obtain ⟨p, q, hbefore, hpq, herror⟩ := Reactor.exists_clash hclash
        show Loading t root (((Reactor.ofList _).mapError Trouble.fault) >>= _)
        rw [herror]
        exact .clash hdefaults hvisited hbefore hpq
      · obtain ⟨reactor, hreactor, hprojects⟩ := Reactor.exists_ofList hclash
        show Loading t root (((Reactor.ofList _).mapError Trouble.fault) >>= _)
        rw [hreactor]
        exact .loaded hdefaults hvisited hprojects

variable {t : FileTree} {root : Path} {reactor : Reactor} {defaults : Request}

/-- A tour that ends in a trouble ends loading in it. -/
theorem load_of_ends {s : Tour} {e : Trouble} (hdefaults : defaultsOf t root = .ok defaults)
    (hs : Tour.Reached t root s) (hend : Tour.Ends t s (.error e)) : load t root = .error e := by
  rw [load_eq, hdefaults, hs.explore_eq hend]
  rfl

/-! ## §4. A workspace that loads. -/

/-- The projects of a workspace come from visits to its directories. -/
structure Survey (t : FileTree) (root : Path) (visited : List Visit) (reactor : Reactor) :
    Prop where
  /-- The root is visited first. -/
  head_eq : (visited.map Visit.directory).head? = some root
  /-- No directory is visited twice. -/
  nodup : (visited.map Visit.directory).Nodup
  /-- Each visit is what the descriptor of its directory says. -/
  records : ∀ v ∈ visited, t.Records v
  /-- There is one project for each visit, in the order of the visits. -/
  projects_eq : reactor.projects = visited.map (Visit.project root visited)

/-- A workspace that loads has a survey, which is that of a finished tour. -/
theorem exists_survey (h : load t root = .ok (reactor, defaults)) :
    ∃ visited, Tour.Reached t root ⟨visited, []⟩ ∧ Unfolds t [root] visited ∧
      Survey t root visited reactor := by
  have hloading := loading_load t root
  rw [h] at hloading
  cases hloading with
  | loaded _ hvisited hprojects =>
    obtain ⟨visits, hvisits, hunfolds⟩ := exists_unfolds hvisited
    rw [hvisits] at hvisited hprojects
    refine ⟨visits, hvisited, hunfolds, ?_, hvisited.nodup, hunfolds.records, hprojects⟩
    obtain ⟨v, rest, rfl, rfl⟩ := hunfolds.exists_eq_cons
    rfl

end BuildPlan.Workspace
