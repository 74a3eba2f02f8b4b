/-
  BuildPlan.Proofs.Reactor.Preorder
  ─────────────────────────────────
  **NARROWING IS A RECURSION OVER MODULES, AND FINDS WHAT THEY LEAD TO.**

  The recursion visits coordinates in turn.  Where there is a project that has not been
  found, it is found now, and its modules are visited in declaration order before
  anything else; any other coordinate is passed over (`visitAll`).  The walk keeps what
  is still to visit on a stack instead of calling itself, and may have a coordinate
  there many times.  Both find the same projects in the same order
  (`visitAll_eq_append_preorder`): a stack put together of two is walked off one after
  the other (`preorder_append`).

      modules      app: core, web, core    core: docs, app    web: web, docs
      found        app  core  docs  web

  What is found is what the modules lead to (`mem_preorder_iff_leadsTo`), and each
  project is found behind one that has it for a module
  (`mem_stack_or_exists_standsBefore`).
-/
import BuildPlan.Proofs.Reactor.Narrowing
import Mathlib.Logic.Relation

namespace BuildPlan.Reactor

variable {r : Reactor} {fresh found found' : List Project} {stack rest cs : List Coordinate}
  {c root : Coordinate} {p q : Project}

/-! ## §1. The recursion. -/

/-- The projects of the reactor that have not been found. -/
def unmet (r : Reactor) (found : List Project) : List Project := r.projects.filter (· ∉ found)

/-- The project at the coordinate, if there is one and it has not been found. -/
def unmet? (r : Reactor) (found : List Project) (c : Coordinate) : Option Project :=
  (r.get? c).filter (· ∉ found)

/-- A coordinate is unmet if a project of the reactor has it and was not found before. -/
theorem unmet?_eq_some_iff :
    r.unmet? found c = some p ↔ (p ∈ r.projects ∧ p.coordinate = c) ∧ p ∉ found := by
  unfold unmet?
  rw [Option.filter_eq_some_iff, get?_eq_some_iff, decide_eq_true_eq]

/-- The more is found, the less is left. -/
theorem unmet_append (r : Reactor) (found l : List Project) :
    r.unmet (found ++ l) = (r.unmet found).filter (· ∉ l) := by
  unfold unmet
  rw [List.filter_filter]
  apply List.filter_congr
  intro q _
  simp [Bool.and_comm]

/-- Each project that is found leaves fewer to find, so the recursion ends. -/
theorem length_unmet_lt (hp : r.unmet? found c = some p) (h : found ++ [p] <+: found') :
    (r.unmet found').length < (r.unmet found).length := by
  obtain ⟨⟨hmem, -⟩, hnew⟩ := unmet?_eq_some_iff.1 hp
  obtain ⟨l, rfl⟩ := h
  rw [List.append_assoc, unmet_append, List.length_filter_lt_length_iff_exists]
  exact ⟨p, List.mem_filter.2 ⟨hmem, by simpa using hnew⟩, by simp⟩

/-- The visits of `visitAll`, with the fact that makes them end: what has been found stays found. -/
def visitWithin (r : Reactor) (found : List Project) :
    List Coordinate → { l : List Project // found <+: l }
  | [] => ⟨found, List.prefix_rfl⟩
  | c :: cs =>
    match _ : r.unmet? found c with
    | none => visitWithin r found cs
    | some p =>
      let below := visitWithin r (found ++ [p]) p.modules
      let beside := visitWithin r below.1 cs
      ⟨beside.1, (List.prefix_append found [p]).trans (below.2.trans beside.2)⟩
termination_by cs => ((r.unmet found).length, cs.length)
decreasing_by
  · exact Prod.Lex.right _ (Nat.lt_succ_self _)
  · exact Prod.Lex.left _ _ (length_unmet_lt ‹_› List.prefix_rfl)
  · exact Prod.Lex.left _ _ (length_unmet_lt ‹_› below.2)

/-- Visits the coordinates of a list in turn.  Where a project is that has not been found, it is
found, and its modules are visited in the same way; any other coordinate is passed over. -/
def visitAll (r : Reactor) (found : List Project) (cs : List Coordinate) : List Project :=
  (visitWithin r found cs).1

@[simp] theorem visitAll_nil : visitAll r found [] = found := by
  unfold visitAll
  rw [visitWithin]

theorem visitAll_cons_of_eq_none (h : r.unmet? found c = none) :
    visitAll r found (c :: cs) = visitAll r found cs := by
  unfold visitAll
  rw [visitWithin]
  split
  · rfl
  · rename_i p hp
    rw [h] at hp
    exact absurd hp (by simp)

/-- An unmet project is found, then all that its modules lead to, then the rest. -/
theorem visitAll_cons_of_eq_some (h : r.unmet? found c = some p) :
    visitAll r found (c :: cs) = visitAll r (visitAll r (found ++ [p]) p.modules) cs := by
  unfold visitAll
  rw [visitWithin]
  split
  · rename_i hnone
    rw [h] at hnone
    exact absurd hnone (by simp)
  · rename_i q hq
    rw [h] at hq
    injection hq with hq
    rw [hq]

/-! ## §2. The walk is the recursion. -/

/-- The walk is over with the upper part of its stack before it comes to the lower part, and has
then found what is not fresh any more. -/
theorem preorder_append (hfresh : fresh.Nodup) :
    preorder fresh (stack ++ rest) =
      preorder fresh stack ++ preorder (fresh.filter (· ∉ preorder fresh stack)) rest := by
  fun_induction preorder fresh stack with
  | case1 fresh => simp
  | case2 fresh c stack h ih =>
    rw [List.cons_append, preorder_cons_of_find?_eq_none h]
    exact ih hfresh
  | case3 fresh c stack p h ih =>
    rw [List.cons_append, preorder_cons_of_find? h, ← List.append_assoc, ih (hfresh.erase p),
      List.cons_append, hfresh.erase_eq_filter, List.filter_filter]
    congr 3
    apply List.filter_congr
    intro q _
    by_cases hq : q = p
    · simp [hq]
    · simp [hq]

theorem nodup_map_coordinate_unmet : ((r.unmet found).map Project.coordinate).Nodup :=
  r.coordinates_nodup.sublist (List.filter_sublist.map Project.coordinate)

/-- The walk looks among the fresh projects for what the recursion looks up in the reactor. -/
theorem find?_unmet : ((r.unmet found).find? fun q => q.coordinate = c) = r.unmet? found c := by
  apply Option.ext
  intro q
  rw [find?_key_eq_some_iff nodup_map_coordinate_unmet, unmet?_eq_some_iff]
  unfold unmet
  rw [List.mem_filter, decide_eq_true_eq]
  exact and_right_comm

theorem erase_unmet (p : Project) : (r.unmet found).erase p = r.unmet (found ++ [p]) := by
  have hnodup : (r.unmet found).Nodup := List.Nodup.of_map _ nodup_map_coordinate_unmet
  rw [hnodup.erase_eq_filter, unmet_append]
  apply List.filter_congr
  intro q _
  rw [Bool.eq_iff_iff]
  simp

/-- **What the recursion has found in the end is what had been found, and then what the walk finds
among the other projects.** -/
theorem visitAll_eq_append_preorder (r : Reactor) (found : List Project) (cs : List Coordinate) :
    visitAll r found cs = found ++ preorder (r.unmet found) cs := by
  fun_induction visitWithin r found cs with
  | case1 found => simp [preorder]
  | case2 found c cs h ih =>
    rw [visitAll_cons_of_eq_none h, preorder_cons_of_find?_eq_none (find?_unmet.trans h)]
    exact ih
  | case3 found c cs p h below beside ihbelow ihbeside =>
    have hunmet : (r.unmet (found ++ [p])).Nodup := List.Nodup.of_map _ nodup_map_coordinate_unmet
    -- what the visits of the modules have found, and what they leave
    have hbelow : below.1 = (found ++ [p]) ++ preorder (r.unmet (found ++ [p])) p.modules := ihbelow
    have hleft : r.unmet below.1 =
        (r.unmet (found ++ [p])).filter (· ∉ preorder (r.unmet (found ++ [p])) p.modules) := by
      rw [hbelow, unmet_append]
    calc visitAll r found (c :: cs) = visitAll r below.1 cs := visitAll_cons_of_eq_some h
      _ = found ++ p :: (preorder (r.unmet (found ++ [p])) p.modules ++
            preorder (r.unmet below.1) cs) := by
          rw [ihbeside, hbelow]
          simp
      _ = found ++ preorder (r.unmet found) (c :: cs) := by
          rw [preorder_cons_of_find? (find?_unmet.trans h), erase_unmet, preorder_append hunmet,
            hleft]

/-! ## §3. What is found. -/

/-- The project at `b` has `c` for a module, and `c` is in the reactor. -/
def Includes (r : Reactor) (b c : Coordinate) : Prop :=
  (∃ p ∈ r.projects, p.coordinate = b ∧ c ∈ p.modules) ∧ c ∈ r

/-- `c` is `b`, or a module of it in the reactor, or a module of such a module, and so on. -/
def LeadsTo (r : Reactor) : Coordinate → Coordinate → Prop := Relation.ReflTransGen r.Includes

/-- A fresh project is found if it is on the stack or a module of a project that is found. -/
theorem mem_preorder_of_listed (hfresh : (fresh.map Project.coordinate).Nodup) (hq : q ∈ fresh)
    (h : q.coordinate ∈ stack ∨ ∃ p ∈ preorder fresh stack, q.coordinate ∈ p.modules) :
    q ∈ preorder fresh stack := by
  fun_induction preorder fresh stack with
  | case1 fresh => simp at h
  | case2 fresh c stack hnone ih =>
    -- `q` is not at the coordinate that is passed over
    have hqc : q.coordinate ≠ c := by
      rw [List.find?_eq_none] at hnone
      simpa using hnone q hq
    apply ih hfresh hq
    exact h.imp_left fun hstack => (List.mem_cons.1 hstack).resolve_left hqc
  | case3 fresh c stack p hsome ih =>
    obtain ⟨hp, hpc⟩ := (find?_key_eq_some_iff hfresh).1 hsome
    by_cases hqp : q = p
    · rw [hqp]
      exact List.mem_cons_self
    · -- `q` is elsewhere, so what lists it is still to come, or is `p`
      have hqc : q.coordinate ≠ c := fun hqc =>
        hqp (List.inj_on_of_nodup_map hfresh hq hp (hqc.trans hpc.symm))
      apply List.mem_cons_of_mem
      apply ih (nodup_map_coordinate_erase hfresh p) ((List.mem_erase_of_ne hqp).2 hq)
      rcases h with hstack | ⟨p', hp', hmodule⟩
      · exact .inl (List.mem_append_right _ ((List.mem_cons.1 hstack).resolve_left hqc))
      · rcases List.mem_cons.1 hp' with rfl | hp'
        · exact .inl (List.mem_append_left _ hmodule)
        · exact .inr ⟨p', hp', hmodule⟩

/-- What is found comes from the stack, or stands behind a project that has it for a module. -/
theorem mem_stack_or_exists_standsBefore (hq : q ∈ preorder fresh stack) :
    q.coordinate ∈ stack ∨
      ∃ p, StandsBefore (preorder fresh stack) p q ∧ q.coordinate ∈ p.modules := by
  fun_induction preorder fresh stack with
  | case1 fresh => simp at hq
  | case2 fresh c stack hnone ih =>
    exact (ih hq).imp_left (List.mem_cons_of_mem c)
  | case3 fresh c stack p hsome ih =>
    rcases List.mem_cons.1 hq with rfl | hq
    · have hqc : q.coordinate = c := by simpa using List.find?_some hsome
      exact .inl (hqc ▸ List.mem_cons_self)
    · rcases ih hq with hstack | ⟨p', hbefore, hmodule⟩
      · rcases List.mem_append.1 hstack with hmodule | hstack
        · exact .inr ⟨p, standsBefore_cons hq, hmodule⟩
        · exact .inl (List.mem_cons_of_mem c hstack)
      · exact .inr ⟨p', hbefore.cons p, hmodule⟩

/-- What is found is led to from a coordinate on the stack. -/
theorem exists_leadsTo_of_mem_preorder (hfresh : ∀ p ∈ fresh, p ∈ r.projects)
    (hq : q ∈ preorder fresh stack) : ∃ c ∈ stack, c ∈ r ∧ r.LeadsTo c q.coordinate := by
  fun_induction preorder fresh stack with
  | case1 fresh => simp at hq
  | case2 fresh c stack hnone ih =>
    obtain ⟨d, hd, hlead⟩ := ih hfresh hq
    exact ⟨d, List.mem_cons_of_mem c hd, hlead⟩
  | case3 fresh c stack p hsome ih =>
    have hp : p ∈ r.projects := hfresh p (List.mem_of_find?_eq_some hsome)
    obtain rfl : p.coordinate = c := by simpa using List.find?_some hsome
    have hc : p.coordinate ∈ r := mem_iff.2 ⟨p, hp, rfl⟩
    rcases List.mem_cons.1 hq with rfl | hq
    · exact ⟨q.coordinate, List.mem_cons_self, hc, .refl⟩
    · obtain ⟨d, hd, hdr, hlead⟩ := ih (fun p' hp' => hfresh p' (List.mem_of_mem_erase hp')) hq
      rcases List.mem_append.1 hd with hmodule | hstack
      · -- from a module of `p`, and so from `p`
        have hincludes : r.Includes p.coordinate d := ⟨⟨p, hp, rfl, hmodule⟩, hdr⟩
        exact ⟨p.coordinate, List.mem_cons_self, hc, .head hincludes hlead⟩
      · exact ⟨d, List.mem_cons_of_mem _ hstack, hdr, hlead⟩

/-- **From the root, the walk finds the projects that the modules lead to.** -/
theorem mem_preorder_iff_leadsTo :
    q ∈ preorder r.projects [root] ↔ q ∈ r.projects ∧ r.LeadsTo root q.coordinate := by
  constructor
  · intro hq
    obtain ⟨c, hc, -, hlead⟩ := exists_leadsTo_of_mem_preorder (fun _ hp => hp) hq
    rw [List.mem_singleton.1 hc] at hlead
    exact ⟨preorder_subset _ _ q hq, hlead⟩
  · intro h
    obtain ⟨hq, hlead⟩ := h
    -- along the chain of modules, each project lists the next
    generalize hc : q.coordinate = c at hlead
    induction hlead generalizing q with
    | refl =>
      exact mem_preorder_of_listed r.coordinates_nodup hq (.inl (hc ▸ List.mem_singleton_self _))
    | tail _ hincludes ih =>
      obtain ⟨⟨p, hp, hpb, hmodule⟩, -⟩ := hincludes
      exact mem_preorder_of_listed r.coordinates_nodup hq (.inr ⟨p, ih hp hpb, hc ▸ hmodule⟩)

/-! ## §4. The law of narrowing. -/

theorem ofList_projects (r : Reactor) : ofList r.projects = .ok r := by
  obtain ⟨r', hr', hprojects⟩ := exists_ofList (not_not_intro r.coordinates_nodup)
  rw [hr', eq_of_projects_eq hprojects]

/-- **A reactor can be narrowed to any of its projects.  What is left is what the recursion from there
finds, in the same order; put together one by one, these projects are a reactor again.  No coordinate
is repeated, and the root is the first one.  The projects are those that the modules of the root, their
modules and so on lead to within the reactor, and every project but the root stands behind one that has
it for a module.** -/
theorem narrowing_visits_modules (r : Reactor) (root : Coordinate) (hroot : root ∈ r) :
    ∃ narrowed, r.narrow? root = some narrowed ∧
      narrowed.projects = visitAll r [] [root] ∧
      ofList (visitAll r [] [root]) = .ok narrowed ∧
      narrowed.coordinates.Nodup ∧
      narrowed.coordinates.head? = some root ∧
      (∀ q, q ∈ narrowed.projects ↔ q ∈ r.projects ∧ r.LeadsTo root q.coordinate) ∧
      ∀ q ∈ narrowed.projects, q.coordinate ≠ root →
        ∃ p, StandsBefore narrowed.projects p q ∧ q.coordinate ∈ p.modules := by
  obtain ⟨narrowed, hnarrowed, hprojects⟩ := exists_narrow? hroot
  have hunmet : r.unmet [] = r.projects := by simp [unmet]
  have hvisits : visitAll r [] [root] = narrowed.projects := by
    rw [visitAll_eq_append_preorder, hunmet, hprojects, List.nil_append]
  obtain ⟨p, hp, rfl⟩ := mem_iff.1 hroot
  refine ⟨narrowed, hnarrowed, hvisits.symm, ?_, narrowed.coordinates_nodup, ?_, ?_, ?_⟩
  · rw [hvisits, ofList_projects]
  · unfold coordinates
    rw [hprojects, preorder_cons_of_mem r.coordinates_nodup hp]
    rfl
  · intro q
    rw [hprojects, mem_preorder_iff_leadsTo]
  · intro q hq hne
    rw [hprojects] at hq ⊢
    rcases mem_stack_or_exists_standsBefore hq with hstack | hbehind
    · exact absurd (List.mem_singleton.1 hstack) hne
    · exact hbehind

/-- The app and its modules, which share the docs, name themselves and each other, and one that is
missing; and a project apart. -/
def bundle : List Project :=
  [.declare ⟨"org", "apart"⟩ none [⟨"org", "app"⟩] [] none none,
    .declare ⟨"org", "web"⟩ none [⟨"org", "web"⟩, ⟨"org", "docs"⟩] [] none none,
    .declare ⟨"org", "docs"⟩ none [] [] none none,
    .declare ⟨"org", "app"⟩ none [⟨"org", "core"⟩, ⟨"org", "web"⟩, ⟨"org", "core"⟩] [] none none,
    .declare ⟨"org", "core"⟩ none [⟨"org", "docs"⟩, ⟨"org", "missing"⟩, ⟨"org", "app"⟩] [] none none]

/-- The reactor of the bundle. -/
def bundleReactor : Reactor := ⟨bundle, by decide⟩

/-- The law at an app whose modules share a project, name themselves and each other, and one that is
missing. -/
theorem narrowing_visits_modules_bundle :
    ⟨"org", "app"⟩ ∈ bundleReactor ∧
      (bundleReactor.narrow? ⟨"org", "app"⟩).map coordinates =
        some [⟨"org", "app"⟩, ⟨"org", "core"⟩, ⟨"org", "docs"⟩, ⟨"org", "web"⟩] ∧
      ∃ narrowed, bundleReactor.narrow? ⟨"org", "app"⟩ = some narrowed ∧
        narrowed.projects = visitAll bundleReactor [] [⟨"org", "app"⟩] ∧
        ofList (visitAll bundleReactor [] [⟨"org", "app"⟩]) = .ok narrowed ∧
        narrowed.coordinates.Nodup ∧
        narrowed.coordinates.head? = some ⟨"org", "app"⟩ ∧
        (∀ q, q ∈ narrowed.projects ↔
          q ∈ bundleReactor.projects ∧ bundleReactor.LeadsTo ⟨"org", "app"⟩ q.coordinate) ∧
        ∀ q ∈ narrowed.projects, q.coordinate ≠ ⟨"org", "app"⟩ →
          ∃ p, StandsBefore narrowed.projects p q ∧ q.coordinate ∈ p.modules := by
  have hroot : ⟨"org", "app"⟩ ∈ bundleReactor := by decide
  exact ⟨hroot, by cbv, narrowing_visits_modules bundleReactor ⟨"org", "app"⟩ hroot⟩

end BuildPlan.Reactor
