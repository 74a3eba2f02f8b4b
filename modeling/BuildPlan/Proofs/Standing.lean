/-
  BuildPlan.Proofs.Standing
  ─────────────────────────
  **WHAT STANDS BEFORE WHAT IN A LIST.**

  `StandsBefore l a b` says that the list has an `a` with a `b` behind it.  In a
  list without repeats this is a strict order:

      StandsBefore.trans            a before b, b before c   →  a before c
      not_standsBefore_self         never a before a
      eq_or_standsBefore            of two members, one is before the other
      mem_fromLast?_iff             what a cut at a leaves: a, and all that a stands before

  A filter keeps the standing of what it keeps (`StandsBefore.filter`), and members
  stand as their images do (`StandsBefore.of_map`).  A filter that keeps a member, some
  of what stands before it and some of what stands behind it is split by the member
  (`filter_eq_append_cons`).  Lists put together, one for each member, come to the list of
  one member if the others have none (`flatMap_eq_of_forall_ne`), and to a filter if each
  has one entry or none (`flatMap_ite_singleton`).  A search for the first member without
  a property comes back empty if all have it (`find?_not_eq_none_iff`), and a search by
  key finds the one member with the key (`find?_key_eq_some_iff`).
-/
import BuildPlan.Position
import Mathlib.Data.List.Nodup

namespace BuildPlan

variable {α β : Type}

/-- The list has an `a` with a `b` behind it. -/
def StandsBefore (l : List α) (a b : α) : Prop := [a, b].Sublist l

/-! ## §1. Standing and splitting. -/

/-- One stands before the other exactly if the list can be cut at the one with the other behind. -/
theorem standsBefore_iff {l : List α} {a b : α} :
    StandsBefore l a b ↔ ∃ front tail, l = front ++ a :: tail ∧ b ∈ tail := by
  constructor
  · intro h
    obtain ⟨l₁, l₂, rfl, ha, hb⟩ := List.cons_sublist_iff.1 h
    obtain ⟨front, mid, rfl⟩ := List.append_of_mem ha
    refine ⟨front, mid ++ l₂, by simp, ?_⟩
    exact List.mem_append_right _ (List.singleton_sublist.1 hb)
  · intro h
    obtain ⟨front, tail, rfl, hb⟩ := h
    show [a, b].Sublist (front ++ a :: tail)
    exact ((List.singleton_sublist.2 hb).cons_cons a).trans (List.sublist_append_right _ _)

/-- In a list without repeats, what an element stands before is what follows it. -/
theorem standsBefore_append_cons_iff {front tail : List α} {a b : α}
    (hl : (front ++ a :: tail).Nodup) :
    StandsBefore (front ++ a :: tail) a b ↔ b ∈ tail := by
  constructor
  · intro h
    obtain ⟨front', tail', heq, hb⟩ := standsBefore_iff.1 h
    obtain ⟨ha, -⟩ := List.nodup_cons.1 (List.nodup_middle.1 hl)
    rw [List.mem_append, not_or] at ha
    -- `a` occurs once, so both splits are the same one
    obtain ⟨-, -, rfl⟩ := (List.append_cons_inj_of_notMem ha.1 ha.2).1 heq
    exact hb
  · intro h
    exact standsBefore_iff.2 ⟨front, tail, rfl, h⟩

theorem standsBefore_cons {l : List α} {a b : α} (h : b ∈ l) : StandsBefore (a :: l) a b :=
  standsBefore_iff.2 ⟨[], l, rfl, h⟩

theorem standsBefore_append_cons {front tail : List α} {a b : α} (h : b ∈ front) :
    StandsBefore (front ++ a :: tail) b a := by
  obtain ⟨front', mid, rfl⟩ := List.append_of_mem h
  exact standsBefore_iff.2 ⟨front', mid ++ a :: tail, by simp, by simp⟩

/-- In a list without repeats, what stands before an element is what it follows. -/
theorem standsBefore_iff_mem_front {front tail : List α} {a b : α}
    (hl : (front ++ a :: tail).Nodup) :
    StandsBefore (front ++ a :: tail) b a ↔ b ∈ front := by
  refine ⟨?_, standsBefore_append_cons⟩
  intro h
  obtain ⟨front', tail', heq, ha⟩ := standsBefore_iff.1 h
  obtain ⟨mid, back, rfl⟩ := List.append_of_mem ha
  obtain ⟨hnot, -⟩ := List.nodup_cons.1 (List.nodup_middle.1 hl)
  rw [List.mem_append, not_or] at hnot
  -- `a` occurs once, so the split at `a` behind `b` is the given one
  have hassoc : front' ++ b :: (mid ++ a :: back) = (front' ++ b :: mid) ++ a :: back := by simp
  rw [hassoc] at heq
  obtain ⟨rfl, -⟩ := (List.append_cons_inj_of_notMem hnot.1 hnot.2).1 heq
  simp

theorem StandsBefore.mem_right {l : List α} {a b : α} (h : StandsBefore l a b) : b ∈ l :=
  h.subset (by simp)

/-- The members of the first list stand before those of the second. -/
theorem standsBefore_append {l l' : List α} {a b : α} (ha : a ∈ l) (hb : b ∈ l') :
    StandsBefore (l ++ l') a b :=
  (List.singleton_sublist.2 ha).append (List.singleton_sublist.2 hb)

/-- Read backwards, a list has its members the other way round. -/
theorem StandsBefore.reverse {l : List α} {a b : α} (h : StandsBefore l a b) :
    StandsBefore l.reverse b a :=
  List.Sublist.reverse h

theorem StandsBefore.cons {l : List α} {a b : α} (h : StandsBefore l a b) (c : α) :
    StandsBefore (c :: l) a b :=
  List.Sublist.cons c h

/-! ## §2. A strict order on the members. -/

/-- In a list without repeats, nothing stands before itself. -/
theorem not_standsBefore_self {l : List α} (hl : l.Nodup) (a : α) : ¬ StandsBefore l a a :=
  List.nodup_iff_sublist.1 hl a

/-- In a list without repeats, standing before passes on. -/
theorem StandsBefore.trans {l : List α} (hl : l.Nodup) {a b c : α}
    (hab : StandsBefore l a b) (hbc : StandsBefore l b c) : StandsBefore l a c := by
  obtain ⟨front, tail, rfl, hb⟩ := standsBefore_iff.1 hab
  obtain ⟨mid, back, rfl⟩ := List.append_of_mem hb
  rw [standsBefore_append_cons_iff hl]
  -- split at `b` instead of `a`
  have hassoc : front ++ a :: (mid ++ b :: back) = (front ++ a :: mid) ++ b :: back := by simp
  rw [hassoc] at hl hbc
  have hc : c ∈ back := (standsBefore_append_cons_iff hl).1 hbc
  exact List.mem_append_right _ (List.mem_cons_of_mem _ hc)

theorem StandsBefore.asymm {l : List α} (hl : l.Nodup) {a b : α} (hab : StandsBefore l a b) :
    ¬ StandsBefore l b a := by
  intro hba
  exact not_standsBefore_self hl a (hab.trans hl hba)

/-- Of two members, one stands before the other, or they are the same. -/
theorem eq_or_standsBefore {l : List α} {a b : α} (ha : a ∈ l) (hb : b ∈ l) :
    a = b ∨ StandsBefore l a b ∨ StandsBefore l b a := by
  obtain ⟨front, tail, rfl⟩ := List.append_of_mem ha
  rcases List.mem_append.1 hb with hb | hb
  · exact .inr (.inr (standsBefore_append_cons hb))
  · rcases List.mem_cons.1 hb with rfl | hb
    · exact .inl rfl
    · exact .inr (.inl (standsBefore_iff.2 ⟨front, tail, rfl, hb⟩))

/-! ## §3. Filters, maps, searches and cuts. -/

/-- Members that are put in between change nothing of who stands before whom. -/
theorem StandsBefore.mono {l l' : List α} {a b : α} (h : StandsBefore l a b)
    (hsub : l.Sublist l') : StandsBefore l' a b :=
  List.Sublist.trans h hsub

theorem StandsBefore.filter {l : List α} {a b : α} (h : StandsBefore l a b) {p : α → Bool}
    (ha : p a = true) (hb : p b = true) : StandsBefore (l.filter p) a b := by
  have hp : [a, b].filter p = [a, b] := by simp [ha, hb]
  show [a, b].Sublist (l.filter p)
  rw [← hp]
  exact List.Sublist.filter p h

theorem StandsBefore.map {l : List α} {a b : α} (h : StandsBefore l a b) (f : α → β) :
    StandsBefore (l.map f) (f a) (f b) :=
  List.Sublist.map f h

/-- Members stand as their images do, if no two of them share an image. -/
theorem StandsBefore.of_map {l : List α} {f : α → β} {a b : α} (hl : (l.map f).Nodup)
    (ha : a ∈ l) (hb : b ∈ l) (h : StandsBefore (l.map f) (f a) (f b)) : StandsBefore l a b := by
  -- the two images come from two members that stand in this order
  obtain ⟨l', hsub, heq⟩ := List.sublist_map_iff.1 h
  obtain ⟨x, y, rfl⟩ : ∃ x y, l' = [x, y] := by
    have hlen := congrArg List.length heq
    rw [List.length_map] at hlen
    exact List.length_eq_two.1 hlen.symm
  simp only [List.map_cons, List.map_nil, List.cons.injEq, and_true] at heq
  -- and these are `a` and `b`
  have hx : x ∈ l := hsub.subset (by simp)
  have hy : y ∈ l := hsub.subset (by simp)
  rw [List.inj_on_of_nodup_map hl ha hx heq.1, List.inj_on_of_nodup_map hl hb hy heq.2]
  exact hsub

/-- What a filter keeps starts with `a`, if it keeps `a` and drops all that stands before it. -/
theorem head?_filter_eq_some {l : List α} {p : α → Bool} {a : α} (ha : a ∈ l) (hpa : p a = true)
    (h : ∀ b, p b = true → ¬ StandsBefore l b a) : (l.filter p).head? = some a := by
  obtain ⟨front, tail, rfl⟩ := List.append_of_mem ha
  have hfront : front.filter p = [] := by
    rw [List.filter_eq_nil_iff]
    intro b hb hpb
    exact h b hpb (standsBefore_append_cons hb)
  rw [List.filter_append, hfront, List.filter_cons_of_pos hpa]
  rfl

/-- What a filter keeps is split at a member by what stands before it and what stands behind it. -/
theorem filter_eq_append_cons {l : List α} {p before after : α → Bool} {a : α} (hl : l.Nodup)
    (ha : a ∈ l) (hp : ∀ b ∈ l, p b = true ↔ before b = true ∨ b = a ∨ after b = true)
    (hbefore : ∀ b ∈ l, before b = true → StandsBefore l b a)
    (hafter : ∀ b ∈ l, after b = true → StandsBefore l a b) :
    l.filter p = l.filter before ++ a :: l.filter after := by
  obtain ⟨front, tail, rfl⟩ := List.append_of_mem ha
  have hself := not_standsBefore_self hl a
  -- in front of `a` only the first filter keeps anything, behind it only the second
  have hfront : ∀ b ∈ front, ¬ (b = a ∨ after b = true) := by
    intro b hb h
    have hba : StandsBefore (front ++ a :: tail) b a := standsBefore_append_cons hb
    rcases h with rfl | h
    · exact hself hba
    · exact hba.asymm hl (hafter b (List.mem_append_left _ hb) h)
  have htail : ∀ b ∈ tail, ¬ (before b = true ∨ b = a) := by
    intro b hb h
    have hab : StandsBefore (front ++ a :: tail) a b := standsBefore_iff.2 ⟨front, tail, rfl, hb⟩
    rcases h with h | rfl
    · exact hab.asymm hl (hbefore b hab.mem_right h)
    · exact hself hab
  have hpfront : front.filter p = front.filter before := by
    apply List.filter_congr
    intro b hb
    rw [Bool.eq_iff_iff, hp b (List.mem_append_left _ hb), or_iff_left (hfront b hb)]
  have hptail : tail.filter p = tail.filter after := by
    apply List.filter_congr
    intro b hb
    rw [Bool.eq_iff_iff, hp b (List.mem_append_right _ (List.mem_cons_of_mem _ hb)), ← or_assoc,
      or_iff_right (htail b hb)]
  have hbeforetail : tail.filter before = [] := by
    rw [List.filter_eq_nil_iff]
    intro b hb h
    exact htail b hb (.inl h)
  have hafterfront : front.filter after = [] := by
    rw [List.filter_eq_nil_iff]
    intro b hb h
    exact hfront b hb (.inr h)
  rw [List.filter_append, List.filter_append, List.filter_append,
    List.filter_cons_of_pos ((hp a ha).2 (.inr (.inl rfl))),
    List.filter_cons_of_neg fun h => hself (hbefore a ha h),
    List.filter_cons_of_neg fun h => hself (hafter a ha h), hpfront, hptail, hbeforetail,
    hafterfront, List.append_nil, List.nil_append]

/-- Of lists put together, only the list of `a` is left if no other member has any. -/
theorem flatMap_eq_of_forall_ne {l : List α} {f : α → List β} {a : α} (hl : l.Nodup) (ha : a ∈ l)
    (h : ∀ b ∈ l, b ≠ a → f b = []) : l.flatMap f = f a := by
  obtain ⟨front, tail, rfl⟩ := List.append_of_mem ha
  obtain ⟨hnot, -⟩ := List.nodup_cons.1 (List.nodup_middle.1 hl)
  have hne : ∀ b ∈ front ++ tail, b ≠ a := fun b hb hba => hnot (hba ▸ hb)
  have hfront : front.flatMap f = [] := by
    rw [List.flatMap_eq_nil_iff]
    intro b hb
    exact h b (List.mem_append_left _ hb) (hne b (List.mem_append_left _ hb))
  have htail : tail.flatMap f = [] := by
    rw [List.flatMap_eq_nil_iff]
    intro b hb
    exact h b (List.mem_append_right _ (List.mem_cons_of_mem a hb))
      (hne b (List.mem_append_right _ hb))
  rw [List.flatMap_append, List.flatMap_cons, hfront, htail, List.append_nil, List.nil_append]

/-- Lists of one member or none, put together, are what a filter keeps. -/
theorem flatMap_ite_singleton (l : List α) (p : α → Prop) [DecidablePred p] (f : α → β) :
    (l.flatMap fun a => if p a then [f a] else []) = (l.filter (p ·)).map f := by
  induction l with
  | nil => rfl
  | cons a l ih =>
    by_cases ha : p a
    · rw [List.flatMap_cons, ih, if_pos ha, List.filter_cons_of_pos (by simpa using ha)]
      rfl
    · rw [List.flatMap_cons, ih, if_neg ha, List.filter_cons_of_neg (by simpa using ha)]
      rfl

/-- The search for a member without the property finds none exactly if all have it. -/
theorem find?_not_eq_none_iff {l : List α} {p : α → Prop} [DecidablePred p] :
    l.find? (fun a => ¬ p a) = none ↔ ∀ a ∈ l, p a := by
  simp [List.find?_eq_none]

/-- In a list whose members have different keys, a search by key finds the one member with it. -/
theorem find?_key_eq_some_iff [DecidableEq β] {l : List α} {key : α → β} {b : β} {a : α}
    (hl : (l.map key).Nodup) : l.find? (fun a => key a = b) = some a ↔ a ∈ l ∧ key a = b := by
  constructor
  · intro hfind
    exact ⟨List.mem_of_find?_eq_some hfind, by simpa using List.find?_some hfind⟩
  · intro ha
    obtain ⟨ha, rfl⟩ := ha
    cases ha' : l.find? (fun a' => key a' = key a) with
    | none =>
      rw [List.find?_eq_none] at ha'
      exact absurd (decide_eq_true rfl) (ha' a ha)
    | some a' =>
      have hkey : key a' = key a := by simpa using List.find?_some ha'
      rw [List.inj_on_of_nodup_map hl (List.mem_of_find?_eq_some ha') ha hkey]

/-- Such a search does not depend on how the members stand. -/
theorem find?_key_of_perm [DecidableEq β] {l l' : List α} {key : α → β} (h : l.Perm l')
    (hl : (l.map key).Nodup) (b : β) :
    l.find? (fun a => key a = b) = l'.find? (fun a => key a = b) := by
  apply Option.ext
  intro a
  rw [find?_key_eq_some_iff hl, find?_key_eq_some_iff ((h.map key).nodup_iff.1 hl), h.mem_iff]

variable [DecidableEq α]

/-- The part from the last occurrence on is an end of the list that begins with the element. -/
theorem exists_of_fromLast?_eq_some {l rest : List α} {a : α} (h : fromLast? a l = some rest) :
    ∃ front tail, l = front ++ a :: tail ∧ rest = a :: tail := by
  induction l generalizing rest with
  | nil => simp [fromLast?] at h
  | cons c l ih =>
    unfold fromLast? at h
    split at h
    · rename_i rest' hrest
      -- there is a later `a`, where the cut is made
      obtain ⟨front, tail, hfront, htail⟩ := ih hrest
      injection h with h
      exact ⟨c :: front, tail, by rw [hfront]; rfl, by rw [← h, htail]⟩
    · split at h
      · rename_i hac
        injection h with h
        exact ⟨[], l, by rw [hac]; rfl, by rw [← h, hac]⟩
      · exact absurd h (by simp)

/-- A cut at an element of a list without repeats leaves the element and what it stands before. -/
theorem mem_fromLast?_iff {l rest : List α} {a b : α} (hl : l.Nodup)
    (h : fromLast? a l = some rest) : b ∈ rest ↔ b = a ∨ StandsBefore l a b := by
  obtain ⟨front, tail, rfl, rfl⟩ := exists_of_fromLast?_eq_some h
  rw [List.mem_cons, standsBefore_append_cons_iff hl]

end BuildPlan
