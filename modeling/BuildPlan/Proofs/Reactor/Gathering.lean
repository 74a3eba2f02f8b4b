/-
  BuildPlan.Proofs.Reactor.Gathering
  ──────────────────────────────────
  **WHICH LISTS OF PROJECTS MAKE A REACTOR.**

  A list without a repeated coordinate becomes a reactor of just these projects
  (`exists_ofList`).  Any other list is refused, and the report is about two projects
  of the list that share a coordinate (`exists_clash`).
-/
import BuildPlan.Reactor.Basic
import BuildPlan.Proofs.Standing

namespace BuildPlan.Reactor

/-! ## §1. Projects by coordinate. -/

/-- A look-up finds the one project with the coordinate. -/
theorem get?_eq_some_iff {r : Reactor} {c : Coordinate} {p : Project} :
    r.get? c = some p ↔ p ∈ r.projects ∧ p.coordinate = c :=
  find?_key_eq_some_iff r.coordinates_nodup

/-- Projects of a reactor are what the look-ups of their coordinates find. -/
theorem filterMap_get?_map_coordinate {r : Reactor} {projects : List Project}
    (h : ∀ p ∈ projects, p ∈ r.projects) :
    (projects.map Project.coordinate).filterMap r.get? = projects := by
  rw [List.filterMap_map]
  calc projects.filterMap (r.get? ∘ Project.coordinate) = projects.filterMap some := by
        apply List.filterMap_congr
        intro p hp
        exact get?_eq_some_iff.2 ⟨h p hp, rfl⟩
    _ = projects := List.filterMap_some

/-- Projects of a reactor are told apart by their coordinates. -/
theorem eq_of_map_coordinate_eq {r : Reactor} {projects projects' : List Project}
    (h : ∀ p ∈ projects, p ∈ r.projects) (h' : ∀ p ∈ projects', p ∈ r.projects)
    (hmap : projects.map Project.coordinate = projects'.map Project.coordinate) :
    projects = projects' := by
  rw [← filterMap_get?_map_coordinate h, hmap, filterMap_get?_map_coordinate h']

theorem eq_of_projects_eq {r r' : Reactor} (h : r.projects = r'.projects) : r = r' := by
  obtain ⟨projects, hnodup⟩ := r
  obtain ⟨projects', hnodup'⟩ := r'
  simp only at h
  subst h
  rfl

/-! ## §2. One more project. -/

/-- A project whose coordinate is free is taken up behind the others. -/
theorem exists_insert {r : Reactor} {p : Project} (h : p.coordinate ∉ r) :
    ∃ r', r.insert p = .ok r' ∧ r'.projects = r.projects ++ [p] := by
  have hget := get?_eq_none_iff.2 h
  unfold insert
  split
  · rename_i q hq
    rw [hget] at hq
    exact absurd hq (by simp)
  · exact ⟨_, rfl, rfl⟩

/-- A project whose coordinate is taken is refused, and both directories are reported. -/
theorem insert_eq_error {r : Reactor} {p q : Project} (hq : q ∈ r.projects)
    (hqp : q.coordinate = p.coordinate) :
    r.insert p = .error (.duplicate p.coordinate [q.path, p.path]) := by
  have hget := get?_eq_some_iff.2 ⟨hq, hqp⟩
  unfold insert
  split
  · rename_i q' hq'
    rw [hget] at hq'
    injection hq' with hq'
    rw [hq']
  · rename_i hnone
    rw [hget] at hnone
    exact absurd hnone (by simp)

/-! ## §3. A whole list. -/

/-- Two projects of the list share a coordinate. -/
def Clash (projects : List Project) : Prop := ¬ (projects.map Project.coordinate).Nodup

theorem exists_foldlM_insert {projects : List Project} :
    ∀ {r : Reactor}, ¬ Clash (r.projects ++ projects) →
      ∃ r', projects.foldlM insert r = .ok r' ∧ r'.projects = r.projects ++ projects := by
  induction projects with
  | nil =>
    intro r _
    exact ⟨r, rfl, (List.append_nil _).symm⟩
  | cons p projects ih =>
    intro r h
    have hnodup := Classical.not_not.1 h
    rw [List.map_append, List.map_cons] at hnodup
    -- the coordinate of `p` is new to the reactor, so `p` is taken up
    have hp : p.coordinate ∉ r := by
      intro hin
      exact (List.nodup_append.1 hnodup).2.2 _ hin _ List.mem_cons_self rfl
    obtain ⟨r₁, hinsert, hr₁⟩ := exists_insert hp
    obtain ⟨r₂, hrest, hr₂⟩ := ih (r := r₁) (by rw [hr₁, List.append_assoc]; exact h)
    refine ⟨r₂, ?_, ?_⟩
    · rw [List.foldlM_cons, hinsert]
      exact hrest
    · rw [hr₂, hr₁, List.append_assoc]
      rfl

/-- A list without a clash makes a reactor of its projects. -/
theorem exists_ofList {projects : List Project} (h : ¬ Clash projects) :
    ∃ r, ofList projects = .ok r ∧ r.projects = projects :=
  exists_foldlM_insert (r := empty) h

/-- Of projects that clash, the first that is refused is reported with the one before it. -/
theorem exists_clash_foldlM {projects : List Project} :
    ∀ {r : Reactor}, Clash (r.projects ++ projects) →
      ∃ p q, StandsBefore (r.projects ++ projects) p q ∧ p.coordinate = q.coordinate ∧
        projects.foldlM insert r = .error (.duplicate q.coordinate [p.path, q.path]) := by
  induction projects with
  | nil =>
    intro r h
    rw [List.append_nil] at h
    exact absurd r.coordinates_nodup h
  | cons q projects ih =>
    intro r h
    by_cases hq : q.coordinate ∈ r
    · -- `q` is refused for the sake of a project that stands before it
      obtain ⟨p, hp, hpq⟩ := mem_iff.1 hq
      refine ⟨p, q, standsBefore_append_cons hp, hpq, ?_⟩
      rw [List.foldlM_cons, insert_eq_error hp hpq]
      rfl
    · obtain ⟨r₁, hinsert, hr₁⟩ := exists_insert hq
      -- `q` is taken up, and the whole list stays the same
      have hshift : r₁.projects ++ projects = r.projects ++ q :: projects := by
        rw [hr₁, List.append_assoc]
        rfl
      rw [← hshift] at h ⊢
      obtain ⟨p, q', hbefore, hpq, herror⟩ := ih h
      refine ⟨p, q', hbefore, hpq, ?_⟩
      rw [List.foldlM_cons, hinsert]
      exact herror

/-- The report about a list that is refused names two of its projects. -/
theorem exists_clash {projects : List Project} (h : Clash projects) :
    ∃ p q, StandsBefore projects p q ∧ p.coordinate = q.coordinate ∧
      ofList projects = .error (.duplicate q.coordinate [p.path, q.path]) :=
  exists_clash_foldlM (r := empty) h

end BuildPlan.Reactor
