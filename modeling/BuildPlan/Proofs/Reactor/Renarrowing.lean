/-
  BuildPlan.Proofs.Reactor.Renarrowing
  ────────────────────────────────────
  **NARROWING A NARROWED REACTOR.**

  A narrowed reactor has fewer projects than the one it was made from, and in another
  order.  But it has every module that any of its projects has in the whole reactor, so
  the two look-ups agree wherever a walk through it can come to (`get?_eq_of_module`):

      whole              … r … a … s … b … c …
      narrowed to r      r  a  s  b             a walk from s comes to b in both,
      narrowed to s      s  b                   and passes over the same coordinates

  So it makes no difference whether a reactor is narrowed at once or in two steps
  (`narrowing_composes`).
-/
import BuildPlan.Proofs.Reactor.Preorder

namespace BuildPlan.Reactor

variable {r narrowed : Reactor} {root c : Coordinate} {p : Project}

/-! ## §1. Look-ups in a narrowed reactor. -/

/-- A narrowed reactor finds what the whole one finds, if the walk comes to it. -/
theorem get?_eq_of_leadsTo (h : narrowed.projects = preorder r.projects [root])
    (hc : c ∈ r → r.LeadsTo root c) : r.get? c = narrowed.get? c := by
  apply Option.ext
  intro q
  rw [get?_eq_some_iff, get?_eq_some_iff, h, mem_preorder_iff_leadsTo]
  constructor
  · intro h
    obtain ⟨hq, rfl⟩ := h
    exact ⟨⟨hq, hc (mem_iff.2 ⟨q, hq, rfl⟩)⟩, rfl⟩
  · intro h
    obtain ⟨⟨hq, -⟩, hqc⟩ := h
    exact ⟨hq, hqc⟩

/-- In particular it finds the modules of its projects. -/
theorem get?_eq_of_module (h : narrowed.projects = preorder r.projects [root])
    (hp : p ∈ narrowed.projects) (hc : c ∈ p.modules) : r.get? c = narrowed.get? c := by
  rw [h, mem_preorder_iff_leadsTo] at hp
  obtain ⟨hp, hlead⟩ := hp
  exact get?_eq_of_leadsTo h fun hcr => hlead.tail ⟨⟨p, hp, rfl, hc⟩, hcr⟩

/-- The walks through the two reactors from a project of the narrowed one are the same. -/
theorem preorder_narrowed (h : narrowed.projects = preorder r.projects [root]) (hc : c ∈ narrowed) :
    preorder r.projects [c] = preorder narrowed.projects [c] := by
  apply preorder_congr r.coordinates_nodup narrowed.coordinates_nodup
  · intro d hd
    obtain ⟨p, hp, hpc⟩ := mem_iff.1 hc
    rw [h, mem_preorder_iff_leadsTo] at hp
    rw [List.mem_singleton.1 hd, ← hpc]
    exact get?_eq_of_leadsTo h fun _ => hp.2
  · intro p hp d hd
    exact get?_eq_of_module h hp hd

/-! ## §2. The law of narrowing twice. -/

/-- **A reactor that is narrowed to a project, and then to one of what is left, is the reactor that is
narrowed to the second at once; narrowed to the same project again, it stays as it is.** -/
theorem narrowing_composes (r : Reactor) (root : Coordinate) (hroot : root ∈ r) :
    ∃ narrowed, r.narrow? root = some narrowed ∧ narrowed.narrow? root = some narrowed ∧
      ∀ s ∈ narrowed, ∃ inner, narrowed.narrow? s = some inner ∧ r.narrow? s = some inner := by
  obtain ⟨narrowed, hnarrowed, hprojects⟩ := exists_narrow? hroot
  have hcomposes : ∀ s ∈ narrowed,
      ∃ inner, narrowed.narrow? s = some inner ∧ r.narrow? s = some inner := by
    intro s hs
    obtain ⟨p, hp, hps⟩ := mem_iff.1 hs
    have hsr : s ∈ r := mem_iff.2 ⟨p, preorder_subset _ _ p (hprojects ▸ hp), hps⟩
    obtain ⟨inner, hinner, hinnerprojects⟩ := exists_narrow? hs
    obtain ⟨inner', hinner', hinnerprojects'⟩ := exists_narrow? hsr
    rw [← preorder_narrowed hprojects hs, ← hinnerprojects'] at hinnerprojects
    rw [← eq_of_projects_eq hinnerprojects] at hinner'
    exact ⟨inner, hinner, hinner'⟩
  refine ⟨narrowed, hnarrowed, ?_, hcomposes⟩
  -- the root is among what is left of it
  have hrootmem : root ∈ narrowed := by
    obtain ⟨p, hp, rfl⟩ := mem_iff.1 hroot
    exact mem_iff.2 ⟨p, hprojects ▸ mem_preorder_iff_leadsTo.2 ⟨hp, .refl⟩, rfl⟩
  obtain ⟨inner, hinner, hinner'⟩ := hcomposes root hrootmem
  rw [hnarrowed] at hinner'
  injection hinner' with hinner'
  rw [hinner, hinner']

/-- The core of the bundle lists the app, so the app is found again from there, and before the web. -/
theorem narrowing_composes_bundle :
    ⟨"org", "app"⟩ ∈ bundleReactor ∧
      (((bundleReactor.narrow? ⟨"org", "app"⟩).bind fun narrowed =>
          narrowed.narrow? ⟨"org", "core"⟩).map coordinates =
        some [⟨"org", "core"⟩, ⟨"org", "docs"⟩, ⟨"org", "app"⟩, ⟨"org", "web"⟩]) ∧
      ∃ narrowed, bundleReactor.narrow? ⟨"org", "app"⟩ = some narrowed ∧
        narrowed.narrow? ⟨"org", "app"⟩ = some narrowed ∧
        ∀ s ∈ narrowed, ∃ inner, narrowed.narrow? s = some inner ∧
          bundleReactor.narrow? s = some inner := by
  have hroot : ⟨"org", "app"⟩ ∈ bundleReactor := by decide
  exact ⟨hroot, by cbv, narrowing_composes bundleReactor ⟨"org", "app"⟩ hroot⟩

end BuildPlan.Reactor
