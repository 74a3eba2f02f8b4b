/-
  BuildPlan.Distinct
  ──────────────────
  **LISTS WITHOUT REPEATS, THE FIRST OCCURRENCE KEPT.**

  Declared dependencies, selectors and resolved projects lose their repeats, and
  the order of first mention stays.  Main statements: `distinct` keeps exactly the
  members (`mem_distinct`), repeats none (`nodup_distinct`), and leaves a list
  without repeats as it is (`distinct_of_nodup`).
-/

namespace BuildPlan

variable {α : Type} [DecidableEq α]

/-- The list without later repeats of an element. -/
def distinct : List α → List α
  | [] => []
  | a :: l => a :: (distinct l).filter (· ≠ a)

/-- No element is lost, and none is added. -/
@[simp, grind =] theorem mem_distinct {a : α} {l : List α} : a ∈ distinct l ↔ a ∈ l := by
  induction l with
  | nil => simp [distinct]
  | cons b l ih =>
    by_cases h : a = b
    · simp [distinct, h]
    · simp [distinct, h, ih]

/-- No element is left twice. -/
theorem nodup_distinct (l : List α) : (distinct l).Nodup := by
  induction l with
  | nil => simp [distinct]
  | cons b l ih =>
    simp only [distinct, List.nodup_cons, List.mem_filter, decide_eq_true_eq, ne_eq,
      not_true, and_false, not_false_iff, true_and]
    exact ih.filter _

/-- A list without repeats is left as it is. -/
theorem distinct_of_nodup {l : List α} (h : l.Nodup) : distinct l = l := by
  induction l with
  | nil => rfl
  | cons b l ih =>
    obtain ⟨hb, hl⟩ := List.nodup_cons.1 h
    rw [distinct, ih hl, List.filter_eq_self.2]
    intro a ha
    have hne : a ≠ b := fun hab => hb (hab ▸ ha)
    simpa using hne

/-- Choosing elements and dropping repeats may be done in either order. -/
theorem filter_distinct (p : α → Bool) (l : List α) :
    (distinct l).filter p = distinct (l.filter p) := by
  induction l with
  | nil => rfl
  | cons a l ih =>
    cases hp : p a with
    | true =>
      rw [List.filter_cons_of_pos hp, distinct, distinct, List.filter_cons_of_pos hp, ← ih,
        List.filter_filter, List.filter_filter]
      simp only [Bool.and_comm]
    | false =>
      rw [List.filter_cons_of_neg (by simp [hp]), distinct, List.filter_cons_of_neg (by simp [hp]),
        ← ih, List.filter_filter]
      -- what meets the condition is not `a`
      apply List.filter_congr
      intro b _
      by_cases hb : b = a
      · simp [hb, hp]
      · simp [hb]

/-- Of the second list, those elements stay that the first one does not have. -/
theorem distinct_append (l l' : List α) :
    distinct (l ++ l') = distinct l ++ (distinct l').filter (· ∉ l) := by
  induction l with
  | nil =>
    have hall : (distinct l').filter (· ∉ ([] : List α)) = distinct l' := by
      rw [List.filter_eq_self]
      simp
    rw [List.nil_append, hall]
    rfl
  | cons a l ih =>
    rw [List.cons_append, distinct, distinct, ih, List.filter_append, List.filter_filter,
      List.cons_append]
    congr 2
    apply List.filter_congr
    intro b _
    by_cases hb : b = a
    · simp [hb]
    · simp [hb]

/-- Repeats at the front may be dropped beforehand. -/
theorem distinct_distinct_append (l l' : List α) :
    distinct (distinct l ++ l') = distinct (l ++ l') := by
  rw [distinct_append, distinct_append, distinct_of_nodup (nodup_distinct l)]
  simp only [mem_distinct]

/-- What is there already adds nothing. -/
theorem distinct_append_of_subset {l l' : List α} (h : ∀ a ∈ l', a ∈ l) :
    distinct (l ++ l') = distinct l := by
  rw [distinct_append]
  have hnil : (distinct l').filter (· ∉ l) = [] := by
    rw [List.filter_eq_nil_iff]
    intro a ha
    simpa using h a (mem_distinct.1 ha)
  rw [hnil, List.append_nil]

/-- One more element at the end stays only if it is new. -/
theorem distinct_concat (l : List α) (a : α) :
    distinct (l ++ [a]) = if a ∈ l then distinct l else distinct l ++ [a] := by
  split
  · rename_i ha
    exact distinct_append_of_subset (by simpa using ha)
  · rename_i ha
    rw [distinct_append]
    simp [distinct, ha]

/-- A map that keeps the members apart keeps the first occurrences. -/
theorem map_distinct {β : Type} [DecidableEq β] {f : α → β} {l : List α}
    (h : ∀ a ∈ l, ∀ b ∈ l, f a = f b → a = b) : (distinct l).map f = distinct (l.map f) := by
  induction l with
  | nil => rfl
  | cons a l ih =>
    rw [distinct, List.map_cons, List.map_cons, distinct,
      ← ih fun b hb c hc => h b (List.mem_cons_of_mem a hb) c (List.mem_cons_of_mem a hc),
      List.filter_map]
    congr 2
    apply List.filter_congr
    intro b hb
    have hab : f b = f a ↔ b = a := by
      constructor
      · exact h b (List.mem_cons_of_mem a (mem_distinct.1 hb)) a List.mem_cons_self
      · intro h
        rw [h]
    simp [hab]

/-- Lists that have no member in common lose their repeats each on its own. -/
theorem distinct_flatMap {β : Type} {f : β → List α} {l : List β} (hl : l.Nodup)
    (h : ∀ b ∈ l, ∀ c ∈ l, ∀ a, a ∈ f b → a ∈ f c → b = c) :
    distinct (l.flatMap f) = l.flatMap fun b => distinct (f b) := by
  induction l with
  | nil => rfl
  | cons b l ih =>
    obtain ⟨hb, hl⟩ := List.nodup_cons.1 hl
    rw [List.flatMap_cons, List.flatMap_cons, distinct_append,
      ih hl fun c hc d hd => h c (List.mem_cons_of_mem b hc) d (List.mem_cons_of_mem b hd)]
    congr 1
    rw [List.filter_eq_self]
    intro a ha
    obtain ⟨c, hc, hac⟩ := List.mem_flatMap.1 ha
    -- a member of the first list would make the first element stand twice
    have hab : a ∉ f b := fun hab =>
      hb (h b List.mem_cons_self c (List.mem_cons_of_mem b hc) a hab (mem_distinct.1 hac) ▸ hc)
    simpa using hab

end BuildPlan
