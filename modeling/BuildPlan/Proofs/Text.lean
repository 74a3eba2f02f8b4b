/-
  BuildPlan.Proofs.Text
  ─────────────────────
  **TEXT WITHOUT ITS PADDING, AND TEXT IN PIECES.**

  Trimming looks at the two ends apart: the first character that is no padding keeps what
  stands in front of it from what stands behind it (`trimChars_append_cons`), and text
  without such a character loses all (`trimChars_eq_nil_or_exists`).  So trimming twice, or
  the end before the whole, is trimming once.

  Cutting looks at the first separator only (`cut_eq_some_iff`).  Taking the pieces apart
  at every separator goes through an append at a separator (`fields_append`), so it undoes
  the joining of texts (`fields_joined`).
-/
import BuildPlan.Text.Blank
import Mathlib.Data.List.DropRight

namespace BuildPlan.Text

/-! ## §1. Dropping characters at either end. -/

section

variable {p : Char → Bool} {c : Char}

/-- A character that is not dropped shields what stands behind it. -/
theorem dropWhile_append_cons (hc : p c = false) (front rest : List Char) :
    (front ++ c :: rest).dropWhile p = front.dropWhile p ++ c :: rest := by
  induction front with
  | nil => simp [hc]
  | cons d front ih =>
    cases hd : p d with
    | true => simp [hd, ih]
    | false => simp [hd]

/-- From the end, a character that is not dropped shields what stands in front of it. -/
theorem rdropWhile_append_cons (hc : p c = false) (front rest : List Char) :
    (front ++ c :: rest).rdropWhile p = front ++ c :: rest.rdropWhile p := by
  have hreverse : (front ++ c :: rest).reverse = rest.reverse ++ c :: front.reverse := by simp
  unfold List.rdropWhile
  rw [hreverse, dropWhile_append_cons hc]
  simp

/-! ## §2. Text without padding. -/

/-- What is not padding keeps apart the padding in front of it and the padding behind it. -/
theorem trimChars_append_cons (hc : isBlank c = false) (front rest : List Char) :
    trimChars (front ++ c :: rest) =
      front.dropWhile isBlank ++ c :: rest.rdropWhile isBlank := by
  unfold trimChars
  rw [dropWhile_append_cons hc]
  exact rdropWhile_append_cons hc _ _

/-- Trimming changes nothing exactly if there is no blank at either end. -/
theorem trimChars_eq_self_iff {cs : List Char} :
    trimChars cs = cs ↔
      (∀ c ∈ cs.head?, isBlank c = false) ∧ ∀ c ∈ cs.getLast?, isBlank c = false := by
  have hend : ∀ ds : List Char, trimEndChars ds = ds.rdropWhile isBlank := fun _ => rfl
  have hfirst : cs.dropWhile isBlank = cs ↔ ∀ c ∈ cs.head?, isBlank c = false := by
    cases cs <;> simp
  have hlast : cs.rdropWhile isBlank = cs ↔ ∀ c ∈ cs.getLast?, isBlank c = false := by
    rw [List.rdropWhile_eq_self_iff]
    cases cs using List.reverseRecOn <;> simp
  unfold trimChars
  rw [hend, ← hfirst, ← hlast]
  constructor
  · intro h
    -- nothing is lost at the front, since all that was there is still there at the end
    have hsuffix := List.dropWhile_suffix isBlank (l := cs)
    have hprefix := List.rdropWhile_prefix isBlank (cs.dropWhile isBlank)
    rw [h] at hprefix
    have hdrop := hsuffix.eq_of_length_le hprefix.length_le
    rw [hdrop] at h
    exact ⟨hdrop, h⟩
  · rintro ⟨hdrop, hlast⟩
    rw [hdrop, hlast]

/-- Text is all padding, or has a character that is none. -/
theorem all_isBlank_or_exists (cs : List Char) :
    (∀ c ∈ cs, isBlank c = true) ∨
      ∃ front c rest, cs = front ++ c :: rest ∧ isBlank c = false := by
  by_cases h : ∃ c ∈ cs, isBlank c = false
  · right
    obtain ⟨c, hc, hblank⟩ := h
    obtain ⟨front, rest, hcs⟩ := List.append_of_mem hc
    exact ⟨front, c, rest, hcs, hblank⟩
  · left
    intro c hc
    by_contra hblank
    exact h ⟨c, hc, by simpa using hblank⟩

/-- Trimming leaves nothing exactly of blanks. -/
theorem trimChars_eq_nil_iff {cs : List Char} :
    trimChars cs = [] ↔ ∀ c ∈ cs, isBlank c = true := by
  rcases all_isBlank_or_exists cs with hall | ⟨front, c, rest, rfl, hc⟩
  · unfold trimChars
    rw [List.dropWhile_eq_nil_iff.2 hall]
    exact ⟨fun _ => hall, fun _ => rfl⟩
  · refine iff_of_false ?_ ?_
    · rw [trimChars_append_cons hc]
      simp
    · intro hall
      exact absurd (hall c (by simp)) (by simp [hc])

/-- Padding at the end may be taken off before the rest. -/
theorem trimChars_rdropWhile (cs : List Char) :
    trimChars (cs.rdropWhile isBlank) = trimChars cs := by
  rcases all_isBlank_or_exists cs with hall | ⟨front, c, rest, rfl, hc⟩
  · rw [List.rdropWhile_eq_nil_iff.2 hall, trimChars_eq_nil_iff.2 hall]
    rfl
  · rw [rdropWhile_append_cons hc, trimChars_append_cons hc, trimChars_append_cons hc,
      List.rdropWhile_idempotent]

@[simp] theorem trimChars_trimChars (cs : List Char) : trimChars (trimChars cs) = trimChars cs := by
  rcases all_isBlank_or_exists cs with hall | ⟨front, c, rest, rfl, hc⟩
  · rw [trimChars_eq_nil_iff.2 hall]
    rfl
  · rw [trimChars_append_cons hc, trimChars_append_cons hc, List.dropWhile_idempotent,
      List.rdropWhile_idempotent]

@[simp] theorem trim_trim (s : String) : trim (trim s) = trim s := by
  unfold trim
  rw [String.toList_ofList, trimChars_trimChars]

end

/-! ## §3. The first separator. -/

variable {sep : Char}

/-- A text is cut at its first separator. -/
theorem cut_eq_some_iff {cs a b : List Char} :
    cut sep cs = (a, some b) ↔ cs = a ++ sep :: b ∧ sep ∉ a := by
  constructor
  · intro h
    induction cs generalizing a with
    | nil =>
      injection h with _ h
      exact absurd h (by simp)
    | cons c cs ih =>
      unfold cut at h
      split at h
      · rename_i hc
        injection h with ha hb
        injection hb with hb
        subst ha hb hc
        exact ⟨rfl, by simp⟩
      · rename_i hc
        injection h with ha hb
        obtain ⟨hcs, hsep⟩ := ih (Prod.ext rfl hb)
        subst ha
        exact ⟨congrArg (c :: ·) hcs, by simp [Ne.symm hc, hsep]⟩
  · rintro ⟨rfl, hsep⟩
    exact cut_append_cons hsep

/-! ## §4. Pieces between separators. -/

/-- No piece holds the separator. -/
theorem not_mem_of_mem_fields {cs f : List Char} (h : f ∈ fields sep cs) : sep ∉ f := by
  induction cs generalizing f with
  | nil =>
    rw [fields, List.mem_singleton] at h
    simp [h]
  | cons c cs ih =>
    unfold fields at h
    split at h
    · rcases List.mem_cons.1 h with rfl | h
      · simp
      · exact ih h
    · rename_i hc
      cases hfields : fields sep cs with
      | nil =>
        rw [hfields, List.mem_singleton] at h
        simp [h, Ne.symm hc]
      | cons g gs =>
        rw [hfields] at h ih
        rcases List.mem_cons.1 h with rfl | h
        · simp [Ne.symm hc, ih List.mem_cons_self]
        · exact ih (List.mem_cons_of_mem g h)

theorem fields_of_not_mem {cs : List Char} (h : sep ∉ cs) : fields sep cs = [cs] := by
  induction cs with
  | nil => rfl
  | cons c cs ih =>
    obtain ⟨hc, hcs⟩ := List.ne_and_not_mem_of_not_mem_cons h
    rw [fields, if_neg (Ne.symm hc), ih hcs]

theorem fields_ne_nil (cs : List Char) : fields sep cs ≠ [] := by
  cases cs with
  | nil => simp [fields]
  | cons c cs =>
    unfold fields
    split
    · simp
    · split <;> simp

/-- Two texts with a separator between them come apart at it. -/
theorem fields_append (a b : List Char) :
    fields sep (a ++ sep :: b) = fields sep a ++ fields sep b := by
  induction a with
  | nil => simp [fields]
  | cons c a ih =>
    rw [List.cons_append, fields, fields]
    split
    · rw [ih, List.cons_append]
    · rw [ih]
      -- the first piece of `a` is the first of all
      cases hfields : fields sep a with
      | nil => exact absurd hfields (fields_ne_nil a)
      | cons f fs => rfl

/-- The first separator ends the first piece. -/
theorem fields_append_cons {a b : List Char} (h : sep ∉ a) :
    fields sep (a ++ sep :: b) = a :: fields sep b := by
  rw [fields_append, fields_of_not_mem h, List.singleton_append]

/-- Texts that are joined come apart again, each in its own pieces. -/
theorem fields_joined {texts : List String} (hne : texts ≠ []) :
    fields sep (joined sep.toString texts).toList =
      texts.flatMap fun s => fields sep s.toList := by
  induction texts with
  | nil => exact absurd rfl hne
  | cons s rest ih =>
    cases rest with
    | nil => simp [joined]
    | cons s' rest =>
      have hjoined : (joined sep.toString (s :: s' :: rest)).toList =
          s.toList ++ sep :: (joined sep.toString (s' :: rest)).toList := by
        simp [joined]
      rw [hjoined, fields_append, ih (List.cons_ne_nil s' rest)]
      rfl

end BuildPlan.Text
