/-
  BuildPlan.Proofs.Reactor.Fitting
  ────────────────────────────────
  **WHICH PROJECTS A SELECTOR FITS.**

  `Fits` says of one project what the form of a selector compares it with:

      a coordinate      the coordinate of the project
      ns:name           the same, once the text has been read
      :name             the name of the project
      anything else     the name of the project, or else its directory

  The look-up finds the projects of the reactor that the selector fits, in order of
  discovery (`mem_lookup_iff`, `lookup_sublist`).  If it fits one, it is resolved, and
  otherwise all that it fits are reported (`resolve_decides`).

  Whether a selector fits a project is not for the other projects to say, but for one
  point: a text is compared with directories only where no project has it as its name.
  So with more projects a selector still offers the one that it stood for, unless it was
  a directory and one of them takes it for its name (`growth_keeps_target`).
-/
import BuildPlan.Proofs.Reactor.PathKey
import BuildPlan.Proofs.Reactor.Resolution

namespace BuildPlan.Reactor

/-! ## §1. The forms of a selector. -/

/-- The selector fits the project. -/
inductive Fits (r : Reactor) : Selector → Project → Prop
  /-- A coordinate fits the project that has it. -/
  | exact {c : Coordinate} {p : Project} (hc : p.coordinate = c) : Fits r (.exact c) p
  /-- A text with something before its first colon fits the project whose coordinate it reads as. -/
  | qualified {s : String} {p : Project} {space name : List Char}
      (hs : s.toList = space ++ ':' :: name) (hcolon : ':' ∉ space) (hspace : space ≠ [])
      (hparse : Coordinate.parse? s = some p.coordinate) : Fits r (.text s) p
  /-- A text that begins with a colon fits the projects of the name behind it. -/
  | named {s : String} {p : Project} (hs : s = ":" ++ p.coordinate.name) : Fits r (.text s) p
  /-- A text without a colon fits the projects of that name. -/
  | bare {s : String} {p : Project} (hcolon : ':' ∉ s.toList) (hname : p.coordinate.name = s) :
      Fits r (.text s) p
  /-- If there are none, it fits the projects in that directory. -/
  | located {s path : String} {p : Project} (hcolon : ':' ∉ s.toList)
      (hunnamed : ∀ q ∈ r.projects, q.coordinate.name ≠ s) (hpath : p.path = some path)
      (hkey : pathKey path = pathKey s) : Fits r (.text s) p

variable {r r' : Reactor} {s : Selector} {t : String} {p : Project} {c : Coordinate}
  {origin origin' : Option String} {space name : List Char}

theorem fits_exact_iff : r.Fits (.exact c) p ↔ p.coordinate = c := by
  constructor
  · intro h
    cases h with
    | exact hc => exact hc
  · exact .exact

/-- A text with a namespace fits the project whose coordinate it reads as. -/
theorem fits_iff_of_qualified (ht : t.toList = space ++ ':' :: name) (hcolon : ':' ∉ space)
    (hspace : space ≠ []) :
    r.Fits (.text t) p ↔ Coordinate.parse? t = some p.coordinate := by
  have hmem : ':' ∈ t.toList := by simp [ht]
  constructor
  · intro h
    cases h with
    | qualified _ _ _ hparse => exact hparse
    | named hs =>
      -- the first colon would be the first character of all
      have hlist : t.toList = [] ++ ':' :: p.coordinate.name.toList := by simp [hs]
      have hcut := Text.cut_append_cons (b := name) hcolon
      rw [← ht, hlist, Text.cut_append_cons (by simp)] at hcut
      injection hcut with hspace'
      exact absurd hspace'.symm hspace
    | bare hcolon' => exact absurd hmem hcolon'
    | located hcolon' => exact absurd hmem hcolon'
  · exact .qualified ht hcolon hspace

theorem fits_iff_of_named {n : String} :
    r.Fits (.text (":" ++ n)) p ↔ p.coordinate.name = n := by
  have hlist : (":" ++ n).toList = [] ++ ':' :: n.toList := by simp
  have hmem : ':' ∈ (":" ++ n).toList := by simp
  constructor
  · intro h
    cases h with
    | qualified hs hcolon hspace =>
      have hcut := Text.cut_append_cons (b := n.toList) (List.not_mem_nil (a := ':'))
      rw [← hlist, hs, Text.cut_append_cons hcolon] at hcut
      injection hcut with hspace'
      exact absurd hspace' hspace
    | named hs => exact (String.append_right_inj ":").1 hs.symm
    | bare hcolon' => exact absurd hmem hcolon'
    | located hcolon' => exact absurd hmem hcolon'
  · intro hname
    exact .named (hname ▸ rfl)

/-- A text without a colon fits by name, and by directory only where no project has the name. -/
theorem fits_iff_of_bare (hcolon : ':' ∉ t.toList) :
    r.Fits (.text t) p ↔
      p.coordinate.name = t ∨ (∀ q ∈ r.projects, q.coordinate.name ≠ t) ∧
        p.path.map pathKey = some (pathKey t) := by
  constructor
  · intro h
    cases h with
    | qualified hs => exact absurd (by simp [hs]) hcolon
    | named hs => exact absurd (by simp [hs]) hcolon
    | bare _ hname => exact .inl hname
    | located _ hunnamed hpath hkey => exact .inr ⟨hunnamed, by rw [hpath, Option.map_some, hkey]⟩
  · intro h
    rcases h with hname | ⟨hunnamed, hpath⟩
    · exact .bare hcolon hname
    · obtain ⟨path, hpath, hkey⟩ := Option.map_eq_some_iff.1 hpath
      exact .located hcolon hunnamed hpath hkey

/-! ## §2. What the look-up finds. -/

theorem mem_named_iff {n : String} :
    p ∈ r.named n ↔ p ∈ r.projects ∧ p.coordinate.name = n := by
  unfold named
  rw [List.mem_filter, decide_eq_true_iff]

/-- The look-up by name goes on to directories only where it finds nothing. -/
theorem mem_lookupBare_iff :
    p ∈ r.lookupBare t ↔
      p ∈ r.projects ∧ (p.coordinate.name = t ∨
        (∀ q ∈ r.projects, q.coordinate.name ≠ t) ∧ p.path.map pathKey = some (pathKey t)) := by
  have hnil : r.named t = [] ↔ ∀ q ∈ r.projects, q.coordinate.name ≠ t := by
    simp only [List.eq_nil_iff_forall_not_mem, mem_named_iff, not_and]
  unfold lookupBare
  split
  · rename_i hnamed
    have hunnamed := hnil.1 hnamed
    rw [mem_located_iff]
    refine and_congr_right fun hp => ?_
    rw [or_iff_right (hunnamed p hp), and_iff_right hunnamed]
  · rename_i hnamed
    rw [mem_named_iff, or_iff_left fun h => hnamed (hnil.2 h.1)]

/-- The look-up finds exactly the projects that the selector fits. -/
theorem mem_lookup_iff : p ∈ r.lookup s ↔ p ∈ r.projects ∧ r.Fits s p := by
  cases s with
  | exact c =>
    rw [fits_exact_iff]
    show p ∈ (r.get? c).toList ↔ _
    rw [Option.mem_toList]
    exact get?_eq_some_iff
  | text t =>
    rcases text_forms t with hbare | ⟨n, rfl⟩ | ⟨space, name, ht, hcolon, hspace⟩
    · rw [lookup_of_bare hbare, fits_iff_of_bare hbare, mem_lookupBare_iff]
    · rw [lookup_of_named, fits_iff_of_named, mem_named_iff]
    · rw [lookup_of_qualified ht hcolon hspace, fits_iff_of_qualified ht hcolon hspace,
        Option.mem_toList, Option.bind_eq_some_iff]
      constructor
      · intro ⟨c, hparse, hget⟩
        obtain ⟨hp, rfl⟩ := get?_eq_some_iff.1 hget
        exact ⟨hp, hparse⟩
      · intro ⟨hp, hparse⟩
        exact ⟨p.coordinate, hparse, get?_eq_some_iff.2 ⟨hp, rfl⟩⟩

/-! ## §3. The law of resolving. -/

/-- **A selector is resolved to a coordinate when the project with it is the only one of the reactor
that the selector fits.  If it fits none or several, these are reported in order of discovery.  A
text that reads as the coordinate it was written for is resolved to that, whatever the other
projects are called and wherever they lie.** -/
theorem resolve_decides (r : Reactor) (s : Selector) (origin : Option String) :
    (∃ found, found.Sublist r.projects ∧ (∀ p, p ∈ found ↔ p ∈ r.projects ∧ r.Fits s p) ∧
      (∀ c, r.resolve origin s = .ok c ↔ ∃ p, found = [p] ∧ p.coordinate = c) ∧
      ((∀ p, found ≠ [p]) →
        r.resolve origin s = .error (.unresolved s (found.map Project.coordinate) origin))) ∧
      ∀ c ∈ r, Coordinate.parse? c.text = some c → r.resolve origin (.text c.text) = .ok c := by
  constructor
  · refine ⟨r.lookup s, lookup_sublist r s, fun p => mem_lookup_iff, fun c => resolve_eq_ok_iff, ?_⟩
    intro hnone
    refine resolve_of_not_resolves ?_
    intro ⟨c, p, hp, _⟩
    exact hnone p hp
  · intro c hc hparse
    obtain ⟨⟨hspace, -⟩, -⟩ := Coordinate.parse?_text_eq_some_iff.1 hparse
    exact resolve_of_standsFor ((standsFor_text_iff hc hspace).2 hparse)

/-- Two projects of one name, and a third that is called like the first is written. -/
def coreReactor : Reactor where
  projects :=
    [.declare ⟨"org", "core"⟩ none [] [] none (some "core"),
      .declare ⟨"lib", "core"⟩ none [] [] none (some "lib/core"),
      .declare ⟨"web", "org:core"⟩ none [] [] none (some "org:core")]
  coordinates_nodup := by decide

/-- The law at a name that two projects share, and at a coordinate that is read while another
project is called so. -/
theorem resolve_decides_core :
    (∃ found, found.Sublist coreReactor.projects ∧
      (∀ p, p ∈ found ↔ p ∈ coreReactor.projects ∧ coreReactor.Fits (.text "core") p) ∧
      (∀ p, found ≠ [p]) ∧
      coreReactor.resolve none (.text "core") =
        .error (.unresolved (.text "core") (found.map Project.coordinate) none)) ∧
      (⟨"org", "core"⟩ : Coordinate) ∈ coreReactor ∧
      Coordinate.parse? "org:core" = some ⟨"org", "core"⟩ ∧
      coreReactor.resolve none (.text "org:core") = .ok ⟨"org", "core"⟩ := by
  obtain ⟨⟨found, hsublist, hfound, -, hreport⟩, htext⟩ :=
    resolve_decides coreReactor (.text "core") none
  have hfits : ∀ p ∈ coreReactor.projects, p.coordinate.name = "core" → p ∈ found :=
    fun p hp hname => (hfound p).2 ⟨hp, .bare (by decide) hname⟩
  have hseveral : ∀ p, found ≠ [p] := by
    intro p hp
    subst hp
    have hfirst := hfits (.declare ⟨"org", "core"⟩ none [] [] none (some "core")) (by decide) rfl
    have hsecond :=
      hfits (.declare ⟨"lib", "core"⟩ none [] [] none (some "lib/core")) (by decide) rfl
    rw [List.mem_singleton] at hfirst hsecond
    exact absurd (hfirst.trans hsecond.symm) (by decide)
  exact ⟨⟨found, hsublist, hfound, hseveral, hreport hseveral⟩, by decide, by decide,
    htext ⟨"org", "core"⟩ (by decide) (by decide)⟩

/-! ## §4. More projects. -/

/-- Resolving the selector gives the coordinate, or a report that has it among the candidates. -/
def Offers (r : Reactor) (origin : Option String) (s : Selector) (c : Coordinate) : Prop :=
  r.resolve origin s = .ok c ∨
    ∃ candidates, r.resolve origin s = .error (.unresolved s candidates origin) ∧ c ∈ candidates

/-- What is offered are the projects that the selector fits. -/
theorem offers_iff :
    r.Offers origin s c ↔ ∃ p ∈ r.projects, r.Fits s p ∧ p.coordinate = c := by
  have hmem : (∃ p ∈ r.projects, r.Fits s p ∧ p.coordinate = c) ↔
      c ∈ (r.lookup s).map Project.coordinate := by
    simp only [List.mem_map, mem_lookup_iff, and_assoc]
  rw [hmem]
  by_cases hresolves : r.Resolves s
  · obtain ⟨c', p, hp, rfl⟩ := hresolves
    have hok : r.resolve origin s = .ok p.coordinate := resolve_of_standsFor ⟨p, hp, rfl⟩
    unfold Offers
    rw [hok, hp]
    simp [eq_comm]
  · unfold Offers
    rw [resolve_of_not_resolves hresolves]
    simp

/-- The text was taken for the directory of the project, and now it is the name of another. -/
structure Overtaken (r r' : Reactor) (t : String) (c : Coordinate) : Prop where
  no_colon : ':' ∉ t.toList
  /-- No project had it as its name. -/
  unnamed : ∀ q ∈ r.projects, q.coordinate.name ≠ t
  /-- The project lies in the directory. -/
  located : ∃ p ∈ r.projects, p.coordinate = c ∧
    ∃ path, p.path = some path ∧ pathKey path = pathKey t
  /-- A project of the larger reactor has it as its name. -/
  named : ∃ q ∈ r'.projects, q.coordinate.name = t

/-- A selector that fits a project still fits it among more projects, if it is not taken for a
name. -/
theorem Fits.mono (hp : p ∈ r.projects) (h : r.Fits s p) :
    r'.Fits s p ∨ ∃ t, s = .text t ∧ Overtaken r r' t p.coordinate := by
  cases h with
  | exact hc => exact .inl (.exact hc)
  | qualified hs hcolon hspace hparse => exact .inl (.qualified hs hcolon hspace hparse)
  | named hs => exact .inl (.named hs)
  | bare hcolon hname => exact .inl (.bare hcolon hname)
  | @located t path _ hcolon hunnamed hpath hkey =>
    by_cases hnamed : ∃ q ∈ r'.projects, q.coordinate.name = t
    · exact .inr ⟨t, rfl, hcolon, hunnamed, ⟨p, hp, rfl, path, hpath, hkey⟩, hnamed⟩
    · push Not at hnamed
      exact .inl (.located hcolon hnamed hpath hkey)

/-- What is taken for a name fits no project that has another. -/
theorem Overtaken.not_offers (h : Overtaken r r' t c) (hsub : ∀ q ∈ r.projects, q ∈ r'.projects) :
    ¬ r'.Offers origin (.text t) c := by
  rw [offers_iff]
  intro ⟨p', hp', hfits, hc⟩
  obtain ⟨p, hp, rfl, -⟩ := h.located
  have hsame : p' = p := List.inj_on_of_nodup_map r'.coordinates_nodup hp' (hsub p hp) hc
  subst hsame
  rcases (fits_iff_of_bare h.no_colon).1 hfits with hname | ⟨hunnamed, -⟩
  · exact h.unnamed p' hp hname
  · obtain ⟨q, hq, hname⟩ := h.named
    exact hunnamed q hq hname

/-- **A selector that stands for a project is never taken for another one when there are more
projects: it still stands for that one, or is reported with it among the candidates.  The only
exception is a text that was taken for a directory and is now the name of a project.** -/
theorem growth_keeps_target (hsub : ∀ p ∈ r.projects, p ∈ r'.projects)
    (h : r.resolve origin s = .ok c) :
    (r'.resolve origin' s = .ok c ∨ ∃ candidates,
        r'.resolve origin' s = .error (.unresolved s candidates origin') ∧ c ∈ candidates) ↔
      ¬ ∃ t, s = .text t ∧ Overtaken r r' t c := by
  obtain ⟨p, hp, hfits, rfl⟩ := offers_iff.1 (.inl h)
  constructor
  · intro hoffers ⟨t, ht, hovertaken⟩
    subst ht
    exact hovertaken.not_offers hsub hoffers
  · intro hnot
    have hfits' := (hfits.mono hp).resolve_right hnot
    exact offers_iff.2 ⟨p, hsub p hp, hfits', rfl⟩

/-- The first of the projects, on its own. -/
def coreAlone : Reactor where
  projects := [.declare ⟨"org", "core"⟩ none [] [] none (some "core")]
  coordinates_nodup := by decide

/-- The law at a name that another project joins in: the selector no longer stands for one project,
and the one it stood for is offered. -/
theorem growth_keeps_target_core :
    (∀ p ∈ coreAlone.projects, p ∈ coreReactor.projects) ∧
      coreAlone.resolve none (.text "core") = .ok ⟨"org", "core"⟩ ∧
      (¬ ∃ t, Selector.text "core" = .text t ∧
        Overtaken coreAlone coreReactor t ⟨"org", "core"⟩) ∧
      ∃ candidates, coreReactor.resolve none (.text "core") =
        .error (.unresolved (.text "core") candidates none) ∧ ⟨"org", "core"⟩ ∈ candidates := by
  have hsub : ∀ p ∈ coreAlone.projects, p ∈ coreReactor.projects := by decide
  have hone : coreAlone.resolve none (.text "core") = .ok ⟨"org", "core"⟩ := by decide
  have hnot : ¬ ∃ t, Selector.text "core" = .text t ∧
      Overtaken coreAlone coreReactor t ⟨"org", "core"⟩ := by
    intro ⟨t, ht, hovertaken⟩
    injection ht with ht
    exact hovertaken.unnamed _ List.mem_cons_self ht
  have hseveral : coreReactor.resolve none (.text "core") ≠ .ok ⟨"org", "core"⟩ := by decide
  exact ⟨hsub, hone, hnot,
    ((growth_keeps_target hsub hone).2 hnot).resolve_left hseveral⟩

/-- A handbook that lies in a directory. -/
def handbook : Project := .declare ⟨"org", "handbook"⟩ none [] [] none (some "docs")

/-- A project that has the name of the directory. -/
def docs : Project := .declare ⟨"org", "docs"⟩ none [] [] none (some "site")

example :
    (⟨[handbook], by decide⟩ : Reactor).resolve none (.text "docs") = .ok handbook.coordinate ∧
      (⟨[handbook, docs], by decide⟩ : Reactor).resolve none (.text "docs") =
        .ok docs.coordinate := by
  decide

end BuildPlan.Reactor
