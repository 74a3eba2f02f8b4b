/-
  BuildPlan.Position
  ──────────────────
  **WHERE SOMETHING STANDS IN AN ORDER.**

  An order given by a user may hold an element twice; its place is then that of
  its last occurrence.
-/

namespace BuildPlan

variable {α β : Type} [DecidableEq α] [DecidableEq β]

/-- The part of an order from the last occurrence of the element on; nothing if it does not
occur. -/
def fromLast? (a : α) : List α → Option (List α)
  | [] => none
  | b :: l =>
    match fromLast? a l with
    | some rest => some rest
    | none => if a = b then some (b :: l) else none

/-- The entries that no later entry shares its key with. -/
def lastPerKey (key : α → β) : List α → List α
  | [] => []
  | a :: l =>
    if key a ∈ l.map key then lastPerKey key l else a :: lastPerKey key l

theorem fromLast?_eq_none_iff {a : α} {l : List α} : fromLast? a l = none ↔ a ∉ l := by
  induction l with
  | nil => simp [fromLast?]
  | cons b l ih =>
    unfold fromLast?
    split
    · rename_i rest h
      have : a ∈ l := Decidable.byContradiction fun hl => by simp [ih.2 hl] at h
      simp [this]
    · rename_i h
      have hl := ih.1 h
      by_cases hab : a = b
      · simp [hab]
      · simp [hab, hl]

omit [DecidableEq α] in
/-- Entries with different keys are all kept. -/
theorem lastPerKey_of_nodup {key : α → β} {l : List α} (h : (l.map key).Nodup) :
    lastPerKey key l = l := by
  induction l with
  | nil => rfl
  | cons a l ih =>
    obtain ⟨ha, hl⟩ := List.nodup_cons.1 h
    rw [lastPerKey, if_neg ha, ih hl]

end BuildPlan
