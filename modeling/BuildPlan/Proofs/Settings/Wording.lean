/-
  BuildPlan.Proofs.Settings.Wording
  ─────────────────────────────────
  **WHERE A DESCRIPTOR MUST HAVE A TEXT.**

  A descriptor may hold a value of any kind where a text is wanted, and then the text of
  the value is taken.  Whatever the language of the settings, a value that counts as given
  has a text that is not empty, if it has one at all; so a project that is read has a
  namespace and a name (`identify_ne_empty`).

  A value without a text is a defect where a coordinate is read.  Elsewhere reading breaks
  off without one, and these are the places:

      defaults       make-behavior, and the entries of exclude     `WordlessDefaults`
      a project      namespace, and name                           `WordlessProject`
-/
import BuildPlan.Proofs.Coordinates
import BuildPlan.Settings.Descriptor

namespace BuildPlan

/-! ## §1. Steps that may fail. -/

section Steps

variable {ε ε' α β : Type} {x : Except ε α}

/-- Two steps succeed when the first does, and the second on what it gives. -/
theorem bind_eq_ok {f : α → Except ε β} {b : β} :
    x >>= f = .ok b ↔ ∃ a, x = .ok a ∧ f a = .ok b := by
  cases x <;> simp [bind, Except.bind]

/-- Two steps fail when the first does, or the second on what it gives. -/
theorem bind_eq_error {f : α → Except ε β} {e : ε} :
    x >>= f = .error e ↔ x = .error e ∨ ∃ a, x = .ok a ∧ f a = .error e := by
  cases x <;> simp [bind, Except.bind]

/-- A success is not touched when the errors are put in other words. -/
theorem mapError_eq_ok {f : ε → ε'} {a : α} : x.mapError f = .ok a ↔ x = .ok a := by
  cases x <;> simp [Except.mapError]

theorem mapError_eq_error {f : ε → ε'} {e' : ε'} :
    x.mapError f = .error e' ↔ ∃ e, x = .error e ∧ f e = e' := by
  cases x <;> simp [Except.mapError]

end Steps

/-! ## §2. The text of a value. -/

namespace Settings

theorem filled?_eq_some_iff {entries : Entries} {key : String} {v : Value} :
    filled? entries key = some v ↔ entries.get? key = some v ∧ v.isFilled = true := by
  unfold filled?
  rw [Option.filter_eq_some_iff]

variable [Format]

theorem textOf_eq_ok_iff {v : Value} {s : String} : textOf v = .ok s ↔ Format.text? v = some s := by
  cases h : Format.text? v <;> simp [textOf, h]

theorem textOf_eq_error_iff {v : Value} {r : Refusal} :
    textOf v = .error r ↔ Format.text? v = none ∧ r = .unwritable := by
  cases h : Format.text? v <;> simp [textOf, h, eq_comm]

/-- The texts of a list fail exactly if one of its values has none. -/
theorem mapM_textOf_eq_error_iff {values : List Value} {r : Refusal} :
    values.mapM textOf = .error r ↔ (∃ v ∈ values, Format.text? v = none) ∧ r = .unwritable := by
  induction values with
  | nil => simp [pure, Except.pure]
  | cons v values ih =>
    rw [List.mapM_cons, bind_eq_error, textOf_eq_error_iff]
    simp only [bind_eq_error, ih]
    cases htext : Format.text? v with
    | none => simp [textOf, htext]
    | some s => simp [textOf, htext, pure, Except.pure]

/-! ## §3. Defaults without a text. -/

/-- A default that is to be a text has none. -/
inductive WordlessDefaults (source : String) (entries : Entries) : Prop
  /-- The choice has none. -/
  | choice {reactor : Entries} {v : Value} (hreactor : defaultsTable source entries = .ok reactor)
      (hv : reactor.get? "make-behavior" = some v) (htext : Format.text? v = none)
  /-- A project to leave out has none, and the choice is one of the four. -/
  | exclude {reactor : Entries} {items : List Value} {v : Value}
      (hreactor : defaultsTable source entries = .ok reactor)
      (hchoice : ∀ w, reactor.get? "make-behavior" = some w →
        ∃ word alsoMake, Format.text? w = some word ∧ AlsoMake.ofWord? word = some alsoMake)
      (hitems : listIn source "reactor" reactor "exclude" = .ok items) (hv : v ∈ items)
      (htext : Format.text? v = none)

/-- The word for the choice, which need not be given. -/
theorem choice_eq_ok_iff {reactor : Entries} {word : String} :
    ((reactor.get? "make-behavior").map textOf).getD (.ok AlsoMake.nothing.word) = .ok word ↔
      (reactor.get? "make-behavior" = none ∧ AlsoMake.nothing.word = word) ∨
        ∃ v, reactor.get? "make-behavior" = some v ∧ Format.text? v = some word := by
  cases reactor.get? "make-behavior" <;> simp [textOf_eq_ok_iff]

/-- The choice fails exactly if it is given as a value without a text. -/
theorem choice_eq_error_iff {reactor : Entries} {r : Refusal} :
    ((reactor.get? "make-behavior").map textOf).getD (.ok AlsoMake.nothing.word) = .error r ↔
      (∃ v, reactor.get? "make-behavior" = some v ∧ Format.text? v = none) ∧ r = .unwritable := by
  cases reactor.get? "make-behavior" <;> simp [textOf_eq_error_iff]

/-- Reading the defaults breaks off exactly if one of them has no text. -/
theorem defaultRequest_eq_unwritable_iff {source : String} {entries : Entries} :
    defaultRequest source entries = .error .unwritable ↔ WordlessDefaults source entries := by
  have hdefect : ∀ {d : Defect}, Refusal.defect d ≠ .unwritable := by simp
  unfold defaultRequest
  simp only [bind_eq_error, mapError_eq_error, mapError_eq_ok, choice_eq_error_iff,
    choice_eq_ok_iff]
  constructor
  · rintro (⟨d, -, hd⟩ | ⟨reactor, hreactor, ⟨⟨v, hv, htext⟩, -⟩ | ⟨word, hword, h⟩⟩)
    · exact absurd hd hdefect
    · exact .choice hreactor hv htext
    · split at h
      · -- the choice is one of the four, so it is the list that has no text
        rename_i alsoMake halsoMake
        have hchoice : ∀ w, reactor.get? "make-behavior" = some w →
            ∃ word alsoMake, Format.text? w = some word ∧ AlsoMake.ofWord? word = some alsoMake := by
          intro w hw
          rcases hword with ⟨hnone, -⟩ | ⟨v, hv, htext⟩
          · exact absurd (hw.symm.trans hnone) (by simp)
          · rw [hw] at hv
            injection hv with hv
            exact ⟨word, alsoMake, hv ▸ htext, halsoMake⟩
        simp only [bind_eq_error, mapError_eq_error, mapError_eq_ok, mapM_textOf_eq_error_iff] at h
        rcases h with h | ⟨_, -, ⟨d, -, hd⟩ | ⟨items, hitems, ⟨⟨v, hv, htext⟩, -⟩ | ⟨_, -, h⟩⟩⟩
        · exact absurd h (by simp)
        · exact absurd hd hdefect
        · exact .exclude hreactor hchoice hitems hv htext
        · exact absurd h (by simp [pure, Except.pure])
      · injection h with h
        exact absurd h hdefect
  · intro h
    cases h with
    | choice hreactor hv htext => exact .inr ⟨_, hreactor, .inl ⟨⟨_, hv, htext⟩, trivial⟩⟩
    | @exclude reactor items v hreactor hchoice hitems hv htext =>
      -- where no choice is given, it is one of the four as well
      have hword : ∃ word alsoMake,
          ((reactor.get? "make-behavior" = none ∧ AlsoMake.nothing.word = word) ∨
            ∃ v, reactor.get? "make-behavior" = some v ∧ Format.text? v = some word) ∧
              AlsoMake.ofWord? word = some alsoMake := by
        cases hget : reactor.get? "make-behavior" with
        | none => exact ⟨_, _, .inl ⟨rfl, rfl⟩, AlsoMake.ofWord?_word _⟩
        | some w =>
          obtain ⟨word, alsoMake, hw, halsoMake⟩ := hchoice w hget
          exact ⟨word, alsoMake, .inr ⟨w, rfl, hw⟩, halsoMake⟩
      obtain ⟨word, alsoMake, hword, halsoMake⟩ := hword
      refine .inr ⟨reactor, hreactor, .inr ⟨word, hword, ?_⟩⟩
      simp only [halsoMake, bind_eq_error, mapError_eq_error, mapError_eq_ok,
        mapM_textOf_eq_error_iff]
      exact .inr ⟨_, rfl, .inr ⟨items, hitems, .inl ⟨⟨v, hv, htext⟩, trivial⟩⟩⟩

/-! ## §4. Projects without a text. -/

/-- The name or the namespace of a project has no text; its parent reads as a coordinate, if it is
given. -/
inductive WordlessProject (source : String) (project : Entries) : Prop
  /-- The namespace has none. -/
  | space {name v : Value} {parent : Option Coordinate}
      (hname : filled? project "name" = some name)
      (hparent : (filled? project "parent").mapM (coordinateIn source "parent") = .ok parent)
      (hv : filled? project "namespace" = some v) (htext : Format.text? v = none)
  /-- The name has none, and there is a namespace. -/
  | name {name : Value} {parent : Option Coordinate} {space : String}
      (hname : filled? project "name" = some name)
      (hparent : (filled? project "parent").mapM (coordinateIn source "parent") = .ok parent)
      (hspace : namespaceOf source project parent = .ok space) (htext : Format.text? name = none)

/-- Only a namespace of its own can leave a project without a text; that of its parent was read. -/
theorem namespaceOf_eq_unwritable_iff {source : String} {project : Entries}
    {parent : Option Coordinate} :
    namespaceOf source project parent = .error .unwritable ↔
      ∃ v, filled? project "namespace" = some v ∧ Format.text? v = none := by
  unfold namespaceOf
  split <;> simp_all [textOf_eq_error_iff]

/-- Telling which project it is breaks off exactly if its name or its namespace has no text. -/
theorem identify_eq_unwritable_iff {source : String} {project : Entries} :
    identify source project = .error .unwritable ↔ WordlessProject source project := by
  unfold identify
  cases hname : filled? project "name" with
  | none =>
    constructor
    · intro h
      injection h with h
      exact absurd h (by simp)
    · intro h
      cases h <;> simp_all
  | some name =>
    simp only [bind_eq_error, mapError_eq_error, mapError_eq_ok, namespaceOf_eq_unwritable_iff,
      textOf_eq_error_iff]
    constructor
    · rintro (⟨d, -, hd⟩ | ⟨parent, hparent, ⟨v, hv, htext⟩ |
        ⟨space, hspace, ⟨htext, -⟩ | ⟨_, -, h⟩⟩⟩)
      · exact absurd hd (by simp)
      · exact .space hname hparent hv htext
      · exact .name hname hparent hspace htext
      · exact absurd h (by simp [pure, Except.pure])
    · intro h
      cases h with
      | space _ hparent hv htext => exact .inr ⟨_, hparent, .inl ⟨_, hv, htext⟩⟩
      | name hname' hparent hspace htext =>
        rw [hname] at hname'
        injection hname' with hname'
        subst hname'
        exact .inr ⟨_, hparent, .inr ⟨_, hspace, .inl ⟨htext, trivial⟩⟩⟩

/-- What is read behind the name and the namespace is a defect if it does not fit. -/
theorem describe_eq_unwritable_iff {source : String} {project : Entries} :
    describe source project = .error .unwritable ↔ WordlessProject source project := by
  rw [← identify_eq_unwritable_iff]
  unfold describe
  simp only [bind_eq_error, mapError_eq_error, mapError_eq_ok]
  constructor
  · rintro (h | ⟨_, -, ⟨d, -, hd⟩ | ⟨_, -, ⟨d, -, hd⟩ | ⟨_, -, ⟨d, -, hd⟩ | ⟨_, -, h⟩⟩⟩⟩)
    · exact h
    · exact absurd hd (by simp)
    · exact absurd hd (by simp)
    · exact absurd hd (by simp)
    · exact absurd h (by simp [pure, Except.pure])
  · exact .inl

/-! ## §5. Projects with a text. -/

/-- A value that reads as a coordinate has both parts. -/
theorem ne_empty_of_coordinateIn {source field : String} {v : Value} {c : Coordinate}
    (h : coordinateIn source field v = .ok c) : c.space ≠ "" ∧ c.name ≠ "" := by
  unfold coordinateIn at h
  split at h
  · exact absurd h (by simp)
  · rw [mapError_eq_ok] at h
    unfold Coordinate.parse at h
    split at h
    · rename_i hparse
      injection h with h
      exact h ▸ (Coordinate.parse?_eq_some_iff.1 hparse).2.1
    · exact absurd h (by simp)

/-- A project that is read has a namespace and a name. -/
theorem identify_ne_empty {source : String} {project : Entries} {c : Coordinate}
    {parent : Option Coordinate} (h : identify source project = .ok (c, parent)) :
    c.space ≠ "" ∧ c.name ≠ "" := by
  unfold identify at h
  split at h
  · exact absurd h (by simp)
  · rename_i name hname
    simp only [bind_eq_ok, mapError_eq_ok, textOf_eq_ok_iff] at h
    obtain ⟨parent', hparent, space, hspace, text, htext, h⟩ := h
    injection h with h
    injection h with hc hp
    subst hc hp
    refine ⟨?_, Format.ne_empty_of_text? (filled?_eq_some_iff.1 hname).2 htext⟩
    unfold namespaceOf at hspace
    split at hspace
    · rename_i hv
      exact Format.ne_empty_of_text? (filled?_eq_some_iff.1 hv).2 (textOf_eq_ok_iff.1 hspace)
    · -- the namespace of the parent, which was read as a coordinate
      rename_i p _
      injection hspace with hspace
      have hread : ∃ v, coordinateIn source "parent" v = .ok p := by
        cases hgiven : filled? project "parent" with
        | none =>
          rw [hgiven] at hparent
          exact absurd hparent (by simp [pure, Except.pure])
        | some v =>
          rw [hgiven, Option.mapM_some, map_eq_pure_bind, bind_eq_ok] at hparent
          obtain ⟨q, hq, hp⟩ := hparent
          injection hp with hp
          injection hp with hp
          exact ⟨v, hp ▸ hq⟩
      obtain ⟨v, hread⟩ := hread
      exact hspace ▸ (ne_empty_of_coordinateIn hread).1
    · exact absurd hspace (by simp)

/-- A project table that is read describes a project with a namespace and a name. -/
theorem describe_ne_empty {source : String} {project : Entries} {d : Description}
    (h : describe source project = .ok d) :
    d.coordinate.space ≠ "" ∧ d.coordinate.name ≠ "" := by
  unfold describe at h
  simp only [bind_eq_ok, mapError_eq_ok] at h
  obtain ⟨⟨c, parent⟩, hidentify, _, -, _, -, _, -, h⟩ := h
  injection h with h
  exact h ▸ identify_ne_empty hidentify

end Settings

end BuildPlan
