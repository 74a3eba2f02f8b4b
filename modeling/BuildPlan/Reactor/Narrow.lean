/-
  BuildPlan.Reactor.Narrow
  ────────────────────────
  **A PROJECT AND ITS MODULES.**

  A reactor is narrowed to one project, the modules of that project, their modules
  and so on.  The walk keeps the coordinates still to visit on a stack and the
  projects not yet found in `fresh`; a coordinate that is not fresh is passed over,
  be it unknown to the reactor or found before.  Each project is found once, so the
  walk ends, also when modules are shared or lead back.

      preorder_subset             only fresh projects are found
      preorder_coordinates_nodup  none of them twice
-/
import BuildPlan.Reactor.Basic

namespace BuildPlan.Reactor

/-! ## §1. The walk. -/

/-- The fresh projects in the order in which a depth-first walk from the coordinates on the
stack finds them, the modules of a project in declaration order. -/
def preorder (fresh : List Project) : List Coordinate → List Project
  | [] => []
  | c :: stack =>
    match _ : fresh.find? fun p => p.coordinate = c with
    | none => preorder fresh stack
    | some p => p :: preorder (fresh.erase p) (p.modules ++ stack)
termination_by stack => (fresh.length, stack.length)
decreasing_by
  · exact Prod.Lex.right _ (by simp)
  · have hmem : p ∈ fresh := List.mem_of_find?_eq_some (by assumption)
    have hlen := List.length_erase_of_mem hmem
    have hpos := List.length_pos_of_mem hmem
    exact Prod.Lex.left _ _ (by omega)

/-- Only fresh projects are found. -/
theorem preorder_subset (fresh : List Project) (stack : List Coordinate) :
    ∀ p ∈ preorder fresh stack, p ∈ fresh := by
  fun_induction preorder fresh stack with
  | case1 => simp
  | case2 fresh c stack h ih => exact ih
  | case3 fresh c stack p h ih =>
    intro q hq
    rcases List.mem_cons.1 hq with rfl | hq
    · exact List.mem_of_find?_eq_some h
    · exact List.mem_of_mem_erase (ih q hq)

/-- No coordinate is found twice. -/
theorem preorder_coordinates_nodup (fresh : List Project) (stack : List Coordinate)
    (hf : (fresh.map Project.coordinate).Nodup) :
    ((preorder fresh stack).map Project.coordinate).Nodup := by
  fun_induction preorder fresh stack with
  | case1 => simp
  | case2 fresh c stack h ih => exact ih hf
  | case3 fresh c stack p h ih =>
    have hmem : p ∈ fresh := List.mem_of_find?_eq_some h
    have hperm : (fresh.map Project.coordinate).Perm
        (p.coordinate :: (fresh.erase p).map Project.coordinate) :=
      (List.perm_cons_erase hmem).map Project.coordinate
    obtain ⟨hp, hrest⟩ := List.nodup_cons.1 (hperm.nodup_iff.1 hf)
    rw [List.map_cons, List.nodup_cons]
    refine ⟨?_, ih hrest⟩
    intro hin
    obtain ⟨q, hq, hqp⟩ := List.mem_map.1 hin
    exact hp (hqp ▸ List.mem_map_of_mem (preorder_subset _ _ q hq))

/-! ## §2. The narrowed reactor. -/

/-- The reactor narrowed to the project with the given coordinate, each project before the
modules that it led to; nothing if there is no such project. -/
def narrow? (r : Reactor) (root : Coordinate) : Option Reactor :=
  if root ∈ r then
    some ⟨preorder r.projects [root], preorder_coordinates_nodup _ _ r.coordinates_nodup⟩
  else none

end BuildPlan.Reactor
