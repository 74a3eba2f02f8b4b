/-
  BuildPlan.Proofs.Reactor.Resolution
  ───────────────────────────────────
  **WHICH SELECTORS STAND FOR A PROJECT.**

  A selector stands for a project when its look-up finds that project and no other
  (`StandsFor`).  Resolving a selector finds out (`resolve_of_standsFor`,
  `resolve_of_not_resolves`), and of several selectors the first that stands for
  none is reported (`resolveAll_of_find?`).
-/
import BuildPlan.Reactor.Resolve
import BuildPlan.Proofs.Coordinates
import BuildPlan.Proofs.Reactor.Gathering

namespace BuildPlan.Reactor

/-! ## §1. One selector. -/

/-- The look-up of the selector finds one project, and this is at the coordinate. -/
def StandsFor (r : Reactor) (s : Selector) (c : Coordinate) : Prop :=
  ∃ p, r.lookup s = [p] ∧ p.coordinate = c

/-- The selector stands for some project. -/
def Resolves (r : Reactor) (s : Selector) : Prop := ∃ c, r.StandsFor s c

variable {r : Reactor} {s : Selector} {c : Coordinate} {origin : Option String}

/-- A selector resolves exactly if its look-up finds one project. -/
theorem resolves_iff : r.Resolves s ↔ (r.lookup s).length = 1 := by
  rw [List.length_eq_one_iff]
  constructor
  · intro h
    obtain ⟨c, p, hp, -⟩ := h
    exact ⟨p, hp⟩
  · intro h
    obtain ⟨p, hp⟩ := h
    exact ⟨p.coordinate, p, hp, rfl⟩

instance : Decidable (r.Resolves s) := decidable_of_iff _ resolves_iff.symm

/-- A selector stands for one project at most. -/
theorem StandsFor.unique {c' : Coordinate} (h : r.StandsFor s c) (h' : r.StandsFor s c') :
    c = c' := by
  obtain ⟨p, hp, rfl⟩ := h
  obtain ⟨q, hq, rfl⟩ := h'
  rw [hp] at hq
  injection hq with hq
  rw [hq]

/-- A look-up finds projects of the reactor, in order of discovery. -/
theorem lookup_sublist (r : Reactor) (s : Selector) : (r.lookup s).Sublist r.projects := by
  have hget : ∀ o : Option Coordinate, (o.bind r.get?).toList.Sublist r.projects := by
    intro o
    cases h : o.bind r.get? with
    | none => exact List.nil_sublist _
    | some p =>
      obtain ⟨c, -, hc⟩ := Option.bind_eq_some_iff.1 h
      exact List.singleton_sublist.2 (get?_eq_some_iff.1 hc).1
  unfold lookup
  split
  · exact hget (some _)
  · split
    · unfold lookupBare
      split
      · exact List.filter_sublist
      · exact List.filter_sublist
    · exact List.filter_sublist
    · exact hget _

theorem StandsFor.mem (h : r.StandsFor s c) : c ∈ r := by
  obtain ⟨p, hp, rfl⟩ := h
  have hmem : p ∈ r.lookup s := by
    rw [hp]
    exact List.mem_singleton_self p
  exact mem_iff.2 ⟨p, (lookup_sublist r s).subset hmem, rfl⟩

/-- A coordinate that is taken as it is stands for its project. -/
theorem standsFor_exact (hc : c ∈ r) : r.StandsFor (.exact c) c := by
  obtain ⟨p, hp, rfl⟩ := mem_iff.1 hc
  have hget := get?_eq_some_iff.2 ⟨hp, rfl⟩
  refine ⟨p, ?_, rfl⟩
  show (r.get? p.coordinate).toList = [p]
  rw [hget]
  rfl

theorem resolve_of_standsFor (h : r.StandsFor s c) : r.resolve origin s = .ok c := by
  obtain ⟨p, hp, rfl⟩ := h
  unfold resolve
  rw [hp]

/-- Any other selector is reported with the projects that it might stand for. -/
theorem resolve_of_not_resolves (h : ¬ r.Resolves s) :
    r.resolve origin s = .error (.unresolved s ((r.lookup s).map Project.coordinate) origin) := by
  unfold resolve
  split
  · rename_i p hp
    exact absurd ⟨p.coordinate, p, hp, rfl⟩ h
  · rfl

theorem resolve_eq_ok_iff : r.resolve origin s = .ok c ↔ r.StandsFor s c := by
  constructor
  · intro h
    unfold resolve at h
    split at h
    · rename_i p hp
      injection h with h
      exact ⟨p, hp, h⟩
    · exact absurd h (by simp)
  · exact resolve_of_standsFor

/-! ## §2. The forms of a text. -/

/-- A text is without a colon, begins with one, or has something before the first one. -/
theorem text_forms (t : String) :
    ':' ∉ t.toList ∨ (∃ name, t = ":" ++ name) ∨
      ∃ space name, t.toList = space ++ ':' :: name ∧ ':' ∉ space ∧ space ≠ [] := by
  by_cases hmem : ':' ∈ t.toList
  · obtain ⟨space, name, ht, hcolon⟩ := List.eq_append_cons_of_mem hmem
    by_cases hspace : space = []
    · refine .inr (.inl ⟨String.ofList name, String.toList_inj.1 ?_⟩)
      rw [ht, hspace]
      simp
    · exact .inr (.inr ⟨space, name, ht, hcolon, hspace⟩)
  · exact .inl hmem

/-- A text without a colon is looked up by name, or else by directory. -/
theorem lookup_of_bare {t : String} (hcolon : ':' ∉ t.toList) :
    r.lookup (.text t) = r.lookupBare t := by
  simp only [lookup, Text.cut_of_not_mem hcolon]

theorem lookup_of_named (r : Reactor) (name : String) :
    r.lookup (.text (":" ++ name)) = r.named name := by
  have hlist : (":" ++ name).toList = [] ++ ':' :: name.toList := by simp
  simp only [lookup, hlist, Text.cut_append_cons List.not_mem_nil, String.ofList_toList]

/-- A text with a namespace is read as a coordinate and looked up as such. -/
theorem lookup_of_qualified {t : String} {space name : List Char}
    (ht : t.toList = space ++ ':' :: name) (hcolon : ':' ∉ space) (hspace : space ≠ []) :
    r.lookup (.text t) = ((Coordinate.parse? t).bind r.get?).toList := by
  obtain ⟨d, space, rfl⟩ := List.exists_cons_of_ne_nil hspace
  simp only [lookup, ht, Text.cut_append_cons hcolon]

/-- The text of a coordinate stands for its project when it reads as the coordinate.  Where the
namespace begins with a colon, the text is taken for a name, and that is longer than the one of the
project. -/
theorem standsFor_text_iff (hc : c ∈ r) (hspace : c.space ≠ "") :
    r.StandsFor (.text c.text) c ↔ Coordinate.parse? c.text = some c := by
  rcases text_forms c.text with hbare | ⟨name, hname⟩ | ⟨space, name, ht, hcolon, hne⟩
  · exact absurd (by simp [Coordinate.toList_text]) hbare
  · obtain ⟨d, space, hds⟩ := List.exists_cons_of_ne_nil (mt String.toList_eq_nil_iff.1 hspace)
    have hlist := congrArg String.toList hname
    rw [Coordinate.toList_text, hds, String.toList_append] at hlist
    injection hlist with hd hlist
    constructor
    · rintro ⟨p, hp, rfl⟩
      rw [hname, lookup_of_named] at hp
      have hmem : p ∈ r.named name := hp ▸ List.mem_singleton_self p
      have hlength := congrArg List.length hlist
      rw [of_decide_eq_true (List.mem_filter.1 hmem).2] at hlength
      simp at hlength
      omega
    · intro hparse
      obtain ⟨-, -, hcolon, -⟩ := Coordinate.parse?_eq_some_iff.1 hparse
      rw [hds, hd] at hcolon
      exact absurd List.mem_cons_self hcolon
  · have hlookup := lookup_of_qualified (r := r) ht hcolon hne
    constructor
    · rintro ⟨p, hp, rfl⟩
      rw [hlookup, Option.toList_eq_singleton_iff, Option.bind_eq_some_iff] at hp
      obtain ⟨c', hparse, hget⟩ := hp
      rw [hparse, (get?_eq_some_iff.1 hget).2]
    · intro hparse
      obtain ⟨p, hp, rfl⟩ := mem_iff.1 hc
      refine ⟨p, ?_, rfl⟩
      rw [hlookup, hparse, Option.bind_some, get?_eq_some_iff.2 ⟨hp, rfl⟩]
      rfl

/-! ## §3. Several selectors. -/

theorem exists_mapM_resolve (origin : Option String) {selectors : List Selector}
    (h : ∀ s ∈ selectors, r.Resolves s) :
    ∃ cs, selectors.mapM (r.resolve origin) = .ok cs ∧
      ∀ c, c ∈ cs ↔ ∃ s ∈ selectors, r.StandsFor s c := by
  induction selectors with
  | nil => exact ⟨[], rfl, by simp⟩
  | cons s selectors ih =>
    obtain ⟨⟨c, hc⟩, hrest⟩ := List.forall_mem_cons.1 h
    obtain ⟨cs, hcs, hmem⟩ := ih hrest
    refine ⟨c :: cs, ?_, ?_⟩
    · rw [List.mapM_cons, resolve_of_standsFor hc, hcs]
      rfl
    · intro d
      rw [List.mem_cons, hmem, List.exists_mem_cons_iff]
      refine or_congr_left ⟨?_, ?_⟩
      · intro hd
        rw [hd]
        exact hc
      · intro hd
        exact hd.unique hc

/-- Selectors that each resolve do so together, to the projects that they stand for. -/
theorem exists_resolveAll (origin : Option String) {selectors : List Selector}
    (h : ∀ s ∈ selectors, r.Resolves s) :
    ∃ cs, r.resolveAll origin selectors = .ok cs ∧
      ∀ c, c ∈ cs ↔ ∃ s ∈ selectors, r.StandsFor s c := by
  obtain ⟨cs, hcs, hmem⟩ := exists_mapM_resolve origin h
  refine ⟨distinct cs, ?_, ?_⟩
  · unfold resolveAll
    rw [hcs]
    rfl
  · intro c
    rw [mem_distinct, hmem]

/-- Selectors that all stand for a project stand for no project only if there are none. -/
theorem eq_nil_iff_of_mem_iff {selectors : List Selector} {cs : List Coordinate}
    (h : ∀ s ∈ selectors, r.Resolves s)
    (hcs : ∀ c, c ∈ cs ↔ ∃ s ∈ selectors, r.StandsFor s c) : cs = [] ↔ selectors = [] := by
  rw [List.eq_nil_iff_forall_not_mem, List.eq_nil_iff_forall_not_mem]
  constructor
  · intro hempty s hs
    obtain ⟨c, hc⟩ := h s hs
    exact hempty c ((hcs c).2 ⟨s, hs, hc⟩)
  · intro hempty c hc
    obtain ⟨s, hs, -⟩ := (hcs c).1 hc
    exact hempty s hs

/-- The first selector that stands for no project is reported. -/
theorem resolveAll_of_find? {selectors : List Selector}
    (h : selectors.find? (fun s => ¬ r.Resolves s) = some s) :
    r.resolveAll origin selectors =
      .error (.unresolved s ((r.lookup s).map Project.coordinate) origin) := by
  have hmapM : selectors.mapM (r.resolve origin) =
      .error (.unresolved s ((r.lookup s).map Project.coordinate) origin) := by
    induction selectors with
    | nil => exact absurd h (by simp)
    | cons a selectors ih =>
      rw [List.mapM_cons]
      by_cases ha : r.Resolves a
      · -- `a` is read, and the search goes on behind it
        rw [List.find?_cons_of_neg (by simpa using ha)] at h
        obtain ⟨c, hc⟩ := ha
        rw [resolve_of_standsFor hc, ih h]
        rfl
      · rw [List.find?_cons_of_pos (by simpa using ha)] at h
        injection h with h
        subst h
        rw [resolve_of_not_resolves ha]
        rfl
  unfold resolveAll
  rw [hmapM]
  rfl

end BuildPlan.Reactor
