/-
  BuildPlan.Proofs.Reactor.Narrowing
  ──────────────────────────────────
  **THE WALK FROM A PROJECT TO ITS MODULES.**

  The walk takes the top coordinate off its stack and looks for a fresh project
  there.  If there is none, it goes on with the rest; if there is one, it goes on with
  the modules of that project, which is fresh no longer (`preorder_cons_of_mem`).
  Only this search looks at the fresh projects, so the walk is the same over all lists
  in which it finds the same projects (`preorder_congr`), and does not depend on the
  order in which the projects were discovered (`preorder_of_perm`).
-/
import BuildPlan.Reactor.Narrow
import BuildPlan.Proofs.Reactor.Gathering

namespace BuildPlan.Reactor

variable {fresh fresh' : List Project} {stack : List Coordinate} {c : Coordinate} {p : Project}

/-! ## §1. One step of the walk. -/

/-- A coordinate that is not fresh is passed over. -/
theorem preorder_cons_of_find?_eq_none (h : fresh.find? (fun p => p.coordinate = c) = none) :
    preorder fresh (c :: stack) = preorder fresh stack := by
  rw [preorder]
  split
  · rfl
  · rename_i p hp
    rw [h] at hp
    exact absurd hp (by simp)

/-- A fresh project is found, and its modules are next. -/
theorem preorder_cons_of_find? (h : fresh.find? (fun p => p.coordinate = c) = some p) :
    preorder fresh (c :: stack) = p :: preorder (fresh.erase p) (p.modules ++ stack) := by
  rw [preorder]
  split
  · rename_i hnone
    rw [h] at hnone
    exact absurd hnone (by simp)
  · rename_i q hq
    rw [h] at hq
    injection hq with hq
    rw [hq]

/-- A fresh project is found, and its modules come before the rest of the stack. -/
theorem preorder_cons_of_mem (hfresh : (fresh.map Project.coordinate).Nodup) (hp : p ∈ fresh) :
    preorder fresh (p.coordinate :: stack) =
      p :: preorder (fresh.erase p) (p.modules ++ stack) :=
  preorder_cons_of_find? ((find?_key_eq_some_iff hfresh).2 ⟨hp, rfl⟩)

/-! ## §2. Which projects the walk looks at. -/

theorem nodup_map_coordinate_erase (h : (fresh.map Project.coordinate).Nodup) (p : Project) :
    ((fresh.erase p).map Project.coordinate).Nodup :=
  h.sublist (List.Sublist.map Project.coordinate List.erase_sublist)

/-- Searches that find the same in two lists still do so without a project. -/
theorem find?_erase_congr (hfresh : (fresh.map Project.coordinate).Nodup)
    (hfresh' : (fresh'.map Project.coordinate).Nodup)
    (h : fresh.find? (fun q => q.coordinate = c) = fresh'.find? fun q => q.coordinate = c) :
    (fresh.erase p).find? (fun q => q.coordinate = c) =
      (fresh'.erase p).find? fun q => q.coordinate = c := by
  apply Option.ext
  intro q
  have hq := congrArg (· = some q) h
  simp only [find?_key_eq_some_iff hfresh, find?_key_eq_some_iff hfresh', eq_iff_iff] at hq
  rw [find?_key_eq_some_iff (nodup_map_coordinate_erase hfresh p),
    find?_key_eq_some_iff (nodup_map_coordinate_erase hfresh' p),
    (List.Nodup.of_map _ hfresh).mem_erase_iff, (List.Nodup.of_map _ hfresh').mem_erase_iff,
    and_assoc, and_assoc, hq]

/-- The walk does the same over two lists if it finds the same in them wherever it can come to: at
the coordinates on the stack, and at the modules of the projects in one of the lists. -/
theorem preorder_congr (hfresh : (fresh.map Project.coordinate).Nodup)
    (hfresh' : (fresh'.map Project.coordinate).Nodup)
    (hstack : ∀ c ∈ stack, fresh.find? (fun q => q.coordinate = c) =
      fresh'.find? fun q => q.coordinate = c)
    (hmodules : ∀ p ∈ fresh', ∀ c ∈ p.modules, fresh.find? (fun q => q.coordinate = c) =
      fresh'.find? fun q => q.coordinate = c) :
    preorder fresh stack = preorder fresh' stack := by
  fun_induction preorder fresh stack generalizing fresh' with
  | case1 => rw [preorder]
  | case2 fresh c stack h ih =>
    obtain ⟨hc, hstack⟩ := List.forall_mem_cons.1 hstack
    rw [preorder_cons_of_find?_eq_none (hc ▸ h)]
    exact ih hfresh hfresh' hstack hmodules
  | case3 fresh c stack p h ih =>
    obtain ⟨hc, hstack⟩ := List.forall_mem_cons.1 hstack
    have h' : fresh'.find? (fun q => q.coordinate = c) = some p := hc ▸ h
    rw [preorder_cons_of_find? h']
    -- both lists lose the project that is found, and what it has for modules is on the stack
    rw [ih (nodup_map_coordinate_erase hfresh p) (nodup_map_coordinate_erase hfresh' p)]
    · intro d hd
      apply find?_erase_congr hfresh hfresh'
      rcases List.mem_append.1 hd with hd | hd
      · exact hmodules p (List.mem_of_find?_eq_some h') d hd
      · exact hstack d hd
    · intro q hq d hd
      exact find?_erase_congr hfresh hfresh' (hmodules q (List.mem_of_mem_erase hq) d hd)

/-- The walk finds the same projects, and in the same order, however the fresh ones stand. -/
theorem preorder_of_perm (hperm : fresh.Perm fresh')
    (hfresh : (fresh.map Project.coordinate).Nodup) (stack : List Coordinate) :
    preorder fresh stack = preorder fresh' stack := by
  have hfind := find?_key_of_perm hperm hfresh
  exact preorder_congr hfresh ((hperm.map _).nodup_iff.1 hfresh) (fun c _ => hfind c)
    fun _ _ c _ => hfind c

/-! ## §3. The narrowed reactor. -/

/-- Narrowing to a project of the reactor succeeds, and leaves what the walk finds. -/
theorem exists_narrow? {r : Reactor} (hc : c ∈ r) :
    ∃ narrowed, r.narrow? c = some narrowed ∧ narrowed.projects = preorder r.projects [c] :=
  ⟨_, if_pos hc, rfl⟩

end BuildPlan.Reactor
