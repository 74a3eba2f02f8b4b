/-
  BuildPlan.Proofs.Options
  ────────────────────────
  **ONE CHOICE OF PROJECTS IN SEVERAL OPTIONS.**

  Values of an option may be given one by one or with commas between them, and a project
  may be excluded by an option of its own or by a mark in front of its selector:

      -pl a -pl b      -pl a,b            the same selectors (`selectorsOf_joined`)
      -pl !a -pl -b    --exclude a,b      the same exclusions (`kept_marked`)

  A mark is no padding, so padding between the mark and the selector is still there when
  the value is trimmed, and goes when the request is made; a mark on its own is a selector
  until then.  An exclusion without a mark is trimmed twice, and left out the first time if
  it is blank.  What the request keeps of both is the same.
-/
import BuildPlan.Command.Options
import BuildPlan.Proofs.Text

namespace BuildPlan

/-! ## §1. What a request keeps. -/

/-- The selectors that a request keeps, repeats included. -/
def Request.kept (selectors : List Selector) : List Selector :=
  (selectors.map Selector.trimmed).filter (· ≠ .text "")

/-- The selector as a text without padding. -/
def Selector.textForm (s : Selector) : Selector := .text (Text.trim s.shown)

namespace Request

variable {s : Selector} {front rest given : List Selector}

theorem kept_append (front rest : List Selector) :
    kept (front ++ rest) = kept front ++ kept rest := by
  unfold kept
  rw [List.map_append, List.filter_append]

theorem tidy_eq_distinct_kept (selectors : List Selector) :
    tidy selectors = distinct (kept selectors) := rfl

/-- Selectors in front of others keep their places. -/
theorem distinct_kept_prefix (front rest : List Selector) :
    distinct (kept front) <+: tidy (front ++ rest) := by
  rw [tidy_eq_distinct_kept, kept_append, distinct_append]
  exact List.prefix_append _ _

/-- Selectors that are handed on as they are shown are kept in their text forms. -/
theorem kept_shown (selectors : List Selector) :
    kept (selectors.map fun s => .text s.shown) =
      (selectors.map Selector.textForm).filter (· ≠ .text "") := by
  unfold kept
  rw [List.map_map]
  rfl

/-- The text of what a request holds is not blank. -/
theorem textForm_ne_blank (hs : s ∈ tidy given) : s.textForm ≠ .text "" := by
  obtain ⟨hne, a, -, rfl⟩ := mem_tidy.1 hs
  cases a with
  | text t =>
    show Selector.text (Text.trim (Text.trim t)) ≠ .text ""
    rw [Text.trim_trim]
    exact hne
  | exact c =>
    -- the colon between the parts is no padding
    intro hblank
    injection hblank with hblank
    have hall := Text.trimChars_eq_nil_iff.1 (String.ofList_eq_empty_iff.1 hblank)
    have hcolon : ':' ∈ (Selector.exact c).trimmed.shown.toList := by
      simp [Selector.shown, Selector.trimmed, Coordinate.text]
    exact absurd (hall ':' hcolon) (by decide)

end Request

namespace Command

variable {mark : Char} {values xs : List String}

/-! ## §2. Values with commas between them. -/

/-- The selectors of some values are those of the values with commas between them. -/
theorem selectorsOf_joined (values : List String) :
    selectorsOf [Text.joined "," values] = selectorsOf values := by
  cases values with
  | nil => rfl
  | cons v values =>
    have hfields : Text.fields ',' (Text.joined "," (v :: values)).toList =
        (v :: values).flatMap fun s => Text.fields ',' s.toList :=
      Text.fields_joined (List.cons_ne_nil v values)
    unfold selectorsOf
    rw [List.flatMap_singleton, hfields]

/-- Values without a comma hold one selector each, or none if they are blank. -/
theorem selectorsOf_of_not_mem (h : ∀ x ∈ values, ',' ∉ x.toList) :
    selectorsOf values = (values.map fun x => Text.trimChars x.toList).filter (· ≠ []) := by
  have hfields : (values.flatMap fun v => Text.fields ',' v.toList) = values.map String.toList := by
    rw [List.map_eq_flatMap]
    exact List.flatMap_congr fun x hx => Text.fields_of_not_mem (h x hx)
  unfold selectorsOf
  rw [hfields, List.map_map]
  rfl

/-! ## §3. Marked selectors. -/

/-- A value with a mark in front of it is a selector, and loses the padding at its end only. -/
theorem selectorsOf_marked (hblank : Text.isBlank mark = false) (hcomma : mark ≠ ',')
    (h : ∀ x ∈ xs, ',' ∉ x.toList) :
    selectorsOf (xs.map (mark.toString ++ ·)) =
      xs.map fun x => mark :: x.toList.rdropWhile Text.isBlank := by
  have hvalues : ∀ v ∈ xs.map (mark.toString ++ ·), ',' ∉ v.toList := by
    intro v hv
    obtain ⟨x, hx, rfl⟩ := List.mem_map.1 hv
    simp [hcomma.symm, h x hx]
  have htrim : ∀ x : String, Text.trimChars (mark.toString ++ x).toList =
      mark :: x.toList.rdropWhile Text.isBlank := by
    intro x
    have hlist : (mark.toString ++ x).toList = [] ++ mark :: x.toList := by simp
    rw [hlist, Text.trimChars_append_cons hblank]
    rfl
  rw [selectorsOf_of_not_mem hvalues, List.map_map, List.filter_eq_self.2]
  · exact List.map_congr_left fun x _ => htrim x
  · intro cs hcs
    obtain ⟨x, -, rfl⟩ := List.mem_map.1 hcs
    rw [Function.comp_apply, htrim]
    simp

/-- What a request keeps of some selectors is what trimming leaves of them. -/
theorem kept_map_asSelector (l : List (List Char)) :
    Request.kept (l.map asSelector) =
      ((l.map Text.trimChars).filter (· ≠ [])).map asSelector := by
  have htrimmed :
      l.map (Selector.trimmed ∘ asSelector) = (l.map Text.trimChars).map asSelector := by
    rw [List.map_map]
    apply List.map_congr_left
    intro cs _
    show Selector.text (Text.trim (String.ofList cs)) = .text (String.ofList (Text.trimChars cs))
    rw [Text.trim, String.toList_ofList]
  unfold Request.kept
  rw [List.map_map, htrimmed, List.filter_map]
  congr 1
  apply List.filter_congr
  intro cs _
  simp [asSelector]

/-- Behind a mark the padding at the end is taken off first and the padding in front later, without
a mark both at once.  A request keeps the same. -/
theorem kept_marked (h : ∀ x ∈ xs, ',' ∉ x.toList) :
    Request.kept ((xs.map fun x => x.toList.rdropWhile Text.isBlank).map asSelector) =
      Request.kept ((selectorsOf xs).map asSelector) := by
  have htwice : (selectorsOf xs).map Text.trimChars = selectorsOf xs := by
    rw [selectorsOf_of_not_mem h]
    conv_rhs => rw [← List.map_id ((xs.map _).filter _)]
    apply List.map_congr_left
    intro cs hcs
    obtain ⟨x, -, rfl⟩ := List.mem_map.1 (List.mem_of_mem_filter hcs)
    exact Text.trimChars_trimChars x.toList
  rw [kept_map_asSelector, kept_map_asSelector, htwice, selectorsOf_of_not_mem h, List.map_map,
    List.filter_filter]
  simp only [Function.comp_def, Text.trimChars_rdropWhile, Bool.and_self]

/-! ## §4. The request. -/

variable {o : OrderOptions} {defaults : Request}

/-- Of the exclusions, those of the workspace come first. -/
theorem excluded_request (o : OrderOptions) (defaults : Request) :
    (o.request defaults).excluded =
      Request.tidy ((defaults.excluded.map fun s => .text s.shown) ++
        ((((selectorsOf o.projects).filter isMarked).map fun cs => asSelector (cs.drop 1)) ++
          (selectorsOf o.exclude).map asSelector)) := by
  rw [← List.append_assoc]
  rfl

/-- Marked selectors exclude as the option that excludes does, and select nothing. -/
theorem request_marked (hmark : isMarked [mark] = true) (h : ∀ x ∈ xs, ',' ∉ x.toList) :
    { o with projects := xs.map (mark.toString ++ ·), exclude := [] }.request defaults =
      { o with projects := [], exclude := xs }.request defaults := by
  have hmarks : mark = '!' ∨ mark = '-' := by simpa [isMarked] using hmark
  have hselectors : selectorsOf (xs.map (mark.toString ++ ·)) =
      xs.map fun x => mark :: x.toList.rdropWhile Text.isBlank := by
    rcases hmarks with rfl | rfl
    · exact selectorsOf_marked (by decide) (by decide) h
    · exact selectorsOf_marked (by decide) (by decide) h
  have hall : ∀ x : String, isMarked (mark :: x.toList.rdropWhile Text.isBlank) = true :=
    fun _ => hmark
  have hselected :
      (selectorsOf (xs.map (mark.toString ++ ·))).filter (fun cs => !isMarked cs) = [] := by
    rw [hselectors, List.filter_map]
    simp [Function.comp_def, hall]
  have hexcluded : ((selectorsOf (xs.map (mark.toString ++ ·))).filter isMarked).map
      (fun cs => asSelector (cs.drop 1)) =
        (xs.map fun x => x.toList.rdropWhile Text.isBlank).map asSelector := by
    rw [hselectors, List.filter_map]
    simp [Function.comp_def, hall]
  have hnone : selectorsOf [] = [] := rfl
  unfold OrderOptions.request Request.of
  simp only [hselected, hexcluded, hnone]
  rw [Request.mk.injEq]
  refine ⟨rfl, ?_, rfl, rfl⟩
  simp only [Request.tidy_eq_distinct_kept, Request.kept_append, kept_marked h]
  simp [Request.kept]

/-- **Commas may stand for a new value of the option, a mark in front of a project for the option
that excludes it: the request is the same.  Its exclusions are texts without padding, none of them
blank and none repeated, and begin with those of the workspace in their order, taken as texts; a
request never holds one that is blank as a text.** -/
theorem request_ignores_spelling (o : OrderOptions) (defaults : Request) :
    { o with projects := [Text.joined "," o.projects] }.request defaults = o.request defaults ∧
      { o with exclude := [Text.joined "," o.exclude] }.request defaults = o.request defaults ∧
      (∀ mark ∈ ['!', '-'], ∀ xs : List String, (∀ x ∈ xs, ',' ∉ x.toList) →
        { o with projects := xs.map (mark.toString ++ ·), exclude := [] }.request defaults =
          { o with projects := [], exclude := xs }.request defaults) ∧
      (o.request defaults).excluded.Nodup ∧
      (∀ s ∈ (o.request defaults).excluded, ∃ t, s = .text t ∧ t ≠ "" ∧ Text.trim t = t) ∧
      distinct ((defaults.excluded.map Selector.textForm).filter (· ≠ .text "")) <+:
        (o.request defaults).excluded ∧
      ∀ given, defaults.excluded = Request.tidy given →
        distinct (defaults.excluded.map Selector.textForm) <+: (o.request defaults).excluded := by
  have hprefix : distinct ((defaults.excluded.map Selector.textForm).filter (· ≠ .text "")) <+:
      (o.request defaults).excluded := by
    rw [excluded_request, ← Request.kept_shown]
    exact Request.distinct_kept_prefix _ _
  refine ⟨?_, ?_, ?_, ?_, ?_, hprefix, ?_⟩
  · unfold OrderOptions.request
    rw [selectorsOf_joined]
  · unfold OrderOptions.request
    rw [selectorsOf_joined]
  · intro mark hmark xs h
    refine request_marked ?_ h
    simpa [isMarked] using hmark
  · exact nodup_distinct _
  · intro s hs
    rw [excluded_request, Request.mem_tidy] at hs
    obtain ⟨hne, a, ha, rfl⟩ := hs
    have htext : ∃ t, a = .text t := by
      simp only [List.mem_append, List.mem_map, asSelector] at ha
      rcases ha with ⟨s, -, rfl⟩ | ⟨cs, -, rfl⟩ | ⟨cs, -, rfl⟩ <;> exact ⟨_, rfl⟩
    obtain ⟨t, rfl⟩ := htext
    exact ⟨Text.trim t, rfl, fun h => hne (congrArg Selector.text h), Text.trim_trim t⟩
  · intro given hgiven
    have hfilled : (defaults.excluded.map Selector.textForm).filter (· ≠ .text "") =
        defaults.excluded.map Selector.textForm := by
      rw [List.filter_eq_self]
      intro s hs
      obtain ⟨a, ha, rfl⟩ := List.mem_map.1 hs
      exact decide_eq_true (Request.textForm_ne_blank (hgiven ▸ ha))
    rw [← hfilled]
    exact hprefix

/-- Padded values, blank ones, and one that begins with a mark of its own. -/
def paddedValues : List String := [" web ", "", "!core", "\t", "web"]

/-- Exclusions of a workspace, two of them with one text. -/
def defaultExclusions : List Selector := [.exact ⟨"org", "docs"⟩, .text " org:docs ", .text "web"]

/-- The law at padded and blank values, and at exclusions of a workspace of which two have one text.
-/
theorem request_ignores_spelling_padded :
    (∀ x ∈ paddedValues, ',' ∉ x.toList) ∧
      OrderOptions.request { projects := paddedValues.map ('!'.toString ++ ·) }
          (.of [] defaultExclusions none .nothing) =
        OrderOptions.request { exclude := paddedValues } (.of [] defaultExclusions none .nothing) ∧
      distinct ((Request.tidy defaultExclusions).map Selector.textForm) <+:
        (OrderOptions.request { exclude := paddedValues }
          (.of [] defaultExclusions none .nothing)).excluded ∧
      (OrderOptions.request { exclude := paddedValues }
          (.of [] defaultExclusions none .nothing)).excluded =
        [.text "org:docs", .text "web", .text "!core"] := by
  have hcommas : ∀ x ∈ paddedValues, ',' ∉ x.toList := by decide
  obtain ⟨-, -, hmarked, -⟩ :=
    request_ignores_spelling {} (.of [] defaultExclusions none .nothing)
  obtain ⟨-, -, -, -, -, -, hfirst⟩ :=
    request_ignores_spelling { exclude := paddedValues } (.of [] defaultExclusions none .nothing)
  exact ⟨hcommas, hmarked '!' (by decide) paddedValues hcommas, hfirst defaultExclusions rfl,
    by decide⟩

end Command

end BuildPlan
