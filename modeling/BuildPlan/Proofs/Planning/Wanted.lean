/-
  BuildPlan.Proofs.Planning.Wanted
  ────────────────────────────────
  **WHAT A REQUEST ASKS FOR.**

  Four sets of coordinates, each made from the one above it, without the stages
  that compute them:

      Chosen        what the selectors stand for, or every project if there are none
      Outstanding   of these, what does not stand before the resume point, and that point
      Gathered      these and, if asked for, what leads to them or what they lead to
      Wanted        these without what the exclusions stand for

  The selectors are resolved before that, in the order of `entries`, and the first
  that stands for no project is reported (`resolve_of_find?`).
-/
import BuildPlan.Planning.Selection
import BuildPlan.Proofs.Precedence
import BuildPlan.Proofs.Reactor.Resolution

namespace BuildPlan

namespace Request

/-! ## §1. The four sets. -/

variable (request : Request) (reactor : Reactor) (order : List Coordinate) (c : Coordinate)

/-- Some selector stands for the project, or none is given and it is in the reactor. -/
def Chosen : Prop :=
  (request.selected = [] ∧ c ∈ reactor) ∨ ∃ s ∈ request.selected, reactor.StandsFor s c

/-- The project is chosen and does not stand before the resume point, or it is that point. -/
def Outstanding : Prop :=
  match request.resumeFrom with
  | none => request.Chosen reactor c
  | some s =>
    ∃ point, reactor.StandsFor s point ∧
      ((request.Chosen reactor c ∧ (c = point ∨ StandsBefore order point c)) ∨ c = point)

/-- The project is outstanding, or it is asked for along with one that is: as a prerequisite of it,
or as a dependent. -/
def Gathered : Prop :=
  request.Outstanding reactor order c ∨
    ((request.alsoMake = .prerequisites ∨ request.alsoMake = .both) ∧
      ∃ b, request.Outstanding reactor order b ∧ PrecedesVia reactor.projects c b) ∨
    ((request.alsoMake = .dependents ∨ request.alsoMake = .both) ∧
      ∃ b, request.Outstanding reactor order b ∧ PrecedesVia reactor.projects b c)

/-- Some exclusion stands for the project. -/
def Excludes : Prop := ∃ s ∈ request.excluded, reactor.StandsFor s c

/-- The project is gathered and not excluded. -/
def Wanted : Prop := request.Gathered reactor order c ∧ ¬ request.Excludes reactor c

/-- The selectors of the request and the options they are given for, in the order in which they
are resolved. -/
def entries : List (Selector × String) :=
  request.selected.map (·, "selected projects") ++
    (request.excluded.map (·, "excluded projects") ++
      request.resumeFrom.toList.map (·, "resume from"))

variable {request reactor order c}

theorem Chosen.mem (h : request.Chosen reactor c) : c ∈ reactor := by
  rcases h with ⟨-, hc⟩ | ⟨s, -, hs⟩
  · exact hc
  · exact hs.mem

theorem Outstanding.mem (h : request.Outstanding reactor order c) : c ∈ reactor := by
  unfold Outstanding at h
  split at h
  · exact h.mem
  · obtain ⟨point, hpoint, ⟨hchosen, -⟩ | rfl⟩ := h
    · exact hchosen.mem
    · exact hpoint.mem

/-- Without a resume point, all that is chosen is outstanding. -/
theorem outstanding_of_none (hfrom : request.resumeFrom = none) :
    request.Outstanding reactor order c ↔ request.Chosen reactor c := by
  unfold Outstanding
  rw [hfrom]

/-- With a resume point, that is outstanding, and what is chosen behind it. -/
theorem outstanding_of_some {s : Selector} {point : Coordinate}
    (hfrom : request.resumeFrom = some s) (hpoint : reactor.StandsFor s point) :
    request.Outstanding reactor order c ↔
      c = point ∨ request.Chosen reactor c ∧ StandsBefore order point c := by
  unfold Outstanding
  rw [hfrom]
  constructor
  · intro h
    obtain ⟨point', hpoint', h⟩ := h
    -- the selector stands for one point only
    rw [hpoint.unique hpoint']
    rcases h with ⟨hchosen, rfl | hbefore⟩ | rfl
    · exact .inl rfl
    · exact .inr ⟨hchosen, hbefore⟩
    · exact .inl rfl
  · intro h
    refine ⟨point, hpoint, ?_⟩
    rcases h with rfl | ⟨hchosen, hbefore⟩
    · exact .inr rfl
    · exact .inl ⟨hchosen, .inr hbefore⟩

theorem Wanted.mem (h : request.Wanted reactor order c) : c ∈ reactor := by
  rcases h.1 with hc | ⟨-, b, -, hcb⟩ | ⟨-, b, -, hbc⟩
  · exact hc.mem
  · exact hcb.mem_left
  · exact hbc.mem_right

/-- What is wanted depends on what is outstanding and excluded, on what is made as well, and on how
the projects precede each other. -/
theorem wanted_congr {request' : Request} {reactor' : Reactor} {order' : List Coordinate}
    (hmake : request.alsoMake = request'.alsoMake)
    (hvia : PrecedesVia reactor.projects = PrecedesVia reactor'.projects)
    (houtstanding : ∀ b, request.Outstanding reactor order b ↔
      request'.Outstanding reactor' order' b)
    (hexcludes : request.Excludes reactor c ↔ request'.Excludes reactor' c) :
    request.Wanted reactor order c ↔ request'.Wanted reactor' order' c := by
  unfold Wanted Gathered
  simp only [hmake, hvia, houtstanding, hexcludes]

end Request

namespace Planning

/-! ## §2. Resolving the selectors. -/

/-- What the selectors of the request stand for. -/
structure Named.Answers (named : Named) (request : Request) (reactor : Reactor) : Prop where
  /-- The selected projects. -/
  selected : ∀ c, c ∈ named.selected ↔ ∃ s ∈ request.selected, reactor.StandsFor s c
  /-- No project is selected only if no selector is given. -/
  selected_eq_nil : named.selected = [] ↔ request.selected = []
  /-- The excluded projects. -/
  excluded : ∀ c, c ∈ named.excluded ↔ request.Excludes reactor c
  /-- The resume point. -/
  resumeFrom : Option.Rel reactor.StandsFor request.resumeFrom named.resumeFrom

variable {request : Request} {reactor : Reactor}

/-- If every selector stands for a project, resolving succeeds. -/
theorem exists_resolve (h : ∀ e ∈ request.entries, reactor.Resolves e.1) :
    ∃ named, resolve reactor request = .ok named ∧ named.Answers request reactor := by
  simp only [Request.entries, List.forall_mem_append, List.forall_mem_map] at h
  obtain ⟨hselected, hexcluded, hresume⟩ := h
  obtain ⟨selected, hsel, hselmem⟩ :=
    Reactor.exists_resolveAll (some "selected projects") hselected
  obtain ⟨excluded, hexc, hexcmem⟩ :=
    Reactor.exists_resolveAll (some "excluded projects") hexcluded
  have hnil : selected = [] ↔ request.selected = [] :=
    Reactor.eq_nil_iff_of_mem_iff hselected hselmem
  unfold resolve
  rw [hsel, hexc]
  cases hfrom : request.resumeFrom with
  | none => exact ⟨⟨selected, excluded, none⟩, rfl, hselmem, hnil, hexcmem, hfrom ▸ .none⟩
  | some s =>
    obtain ⟨point, hpoint⟩ := hresume s (by rw [hfrom]; simp)
    refine ⟨⟨selected, excluded, some point⟩, ?_, hselmem, hnil, hexcmem, hfrom ▸ .some hpoint⟩
    rw [Option.mapM_some, Reactor.resolve_of_standsFor hpoint]
    rfl

theorem find?_map_prodMk (l : List Selector) (o : String) :
    (l.map (·, o)).find? (fun e => ¬ reactor.Resolves e.1) =
      (l.find? (fun s => ¬ reactor.Resolves s)).map (·, o) := by
  rw [List.find?_map]
  rfl

/-- The first selector that stands for no project is reported, along with the projects that it
might stand for and its option. -/
theorem resolve_of_find? {s : Selector} {origin : String}
    (h : request.entries.find? (fun e => ¬ reactor.Resolves e.1) = some (s, origin)) :
    resolve reactor request =
      .error (.unresolved s ((reactor.lookup s).map Project.coordinate) (some origin)) := by
  unfold Request.entries at h
  rw [List.find?_append, List.find?_append, find?_map_prodMk, find?_map_prodMk,
    find?_map_prodMk] at h
  unfold resolve
  -- the first list with a selector that stands for nothing decides
  cases hselected : request.selected.find? (fun s => ¬ reactor.Resolves s) with
  | some s' =>
    rw [hselected] at h
    cases h
    rw [Reactor.resolveAll_of_find? hselected]
    rfl
  | none =>
    obtain ⟨selected, hsel, -⟩ :=
      Reactor.exists_resolveAll (some "selected projects") (find?_not_eq_none_iff.1 hselected)
    rw [hsel]
    rw [hselected] at h
    cases hexcluded : request.excluded.find? (fun s => ¬ reactor.Resolves s) with
    | some s' =>
      rw [hexcluded] at h
      cases h
      rw [Reactor.resolveAll_of_find? hexcluded]
      rfl
    | none =>
      obtain ⟨excluded, hexc, -⟩ :=
        Reactor.exists_resolveAll (some "excluded projects") (find?_not_eq_none_iff.1 hexcluded)
      rw [hexc]
      rw [hexcluded] at h
      -- only the resume point is left
      cases hfrom : request.resumeFrom with
      | none =>
        rw [hfrom] at h
        exact absurd h (by simp)
      | some s' =>
        rw [hfrom] at h
        by_cases hs' : reactor.Resolves s'
        · exact absurd h (by simp [hs'])
        · simp [hs'] at h
          obtain ⟨rfl, rfl⟩ := h
          rw [Option.mapM_some, Reactor.resolve_of_not_resolves hs']
          rfl

/-- Selectors that were resolved all stand for a project. -/
theorem resolves_of_resolve {named : Named} (h : resolve reactor request = .ok named) :
    ∀ e ∈ request.entries, reactor.Resolves e.1 := by
  cases hfirst : request.entries.find? (fun e => ¬ reactor.Resolves e.1) with
  | none => exact find?_not_eq_none_iff.1 hfirst
  | some e =>
    rw [resolve_of_find? hfirst] at h
    exact absurd h (by simp)

/-- What resolving comes to are the answers of the selectors. -/
theorem answers_of_resolve {named : Named} (h : resolve reactor request = .ok named) :
    named.Answers request reactor := by
  obtain ⟨named', h', hanswers⟩ := exists_resolve (resolves_of_resolve h)
  rw [h] at h'
  injection h' with h'
  exact h' ▸ hanswers

end Planning

end BuildPlan
