/-
  BuildPlan.Proofs.Digraph.Spread
  ───────────────────────────────
  **THE CLOSURES, ONE VERTEX AT A TIME.**

  The closure of some vertices can be found with a stack.  The starting points are put on
  it, and each round takes the vertex on top, looks at its neighbours in turn, and notes
  those that are not noted yet and puts them on the stack (`step`).  Starting points are
  not noted to begin with, so one may be on the stack twice, or come back later.

      stack        reached, not looked at  |  starting points not looked at
      each round   one vertex off, and as many on as are noted

  What a round keeps true (`Sound`): a vertex that is noted can be reached, and once a
  starting point or a vertex noted is off the stack its neighbours are noted.  So at the
  end just what paths reach is noted, and the number of rounds is the number of starting
  points and of vertices reached.  A starting point that is no vertex ends the search; the
  last one does, as its turn comes first.  This is what the closure answers (`ends_closure`).
-/
import BuildPlan.Proofs.Digraph.FirstCycle
import BuildPlan.Proofs.Digraph.Reachability
import BuildPlan.Proofs.Rounds

namespace BuildPlan.Digraph

variable {α : Type} [DecidableEq α]

/-! ## §1. The search. -/

/-- How far the search with a stack has come. -/
structure Spread (α : Type) where
  /-- The vertices noted, in the order in which they were reached. -/
  reached : List α
  /-- The vertices whose neighbours are to be looked at, the next one first. -/
  stack : List α

/-- What one round of the search comes to. -/
inductive Spread.Step (α : Type) where
  | next (s : Spread α)
  /-- The vertex on top of the stack is none of the graph. -/
  | unknown (v : α)
  | ended (reached : List α)

namespace Spread

/-- The search before its first round. -/
def start (starts : List α) : Spread α := ⟨[], starts.reverse⟩

/-- Notes a vertex and puts it on the stack, unless it is noted. -/
def meet (s : Spread α) (w : α) : Spread α :=
  if w ∈ s.reached then s else ⟨s.reached ++ [w], w :: s.stack⟩

/-- One round: looks at the neighbours of the vertex on top of the stack. -/
def step (g : Digraph α) (next : α → List α) (s : Spread α) : Step α :=
  match s.stack with
  | [] => .ended s.reached
  | v :: stack =>
    if v ∈ g.vertices then .next ((next v).foldl meet ⟨s.reached, stack⟩) else .unknown v

/-- A round that the search goes on after. -/
def Round (g : Digraph α) (next : α → List α) (s s' : Spread α) : Prop := step g next s = .next s'

/-- The search comes to an end, and to an answer: the starting point that is no vertex, or what is
noted at the end, in whatever order. -/
structure Ends (g : Digraph α) (next : α → List α) (starts : List α)
    (answer : Except α (List α)) : Prop where
  /-- There are not more rounds than starting points and vertices. -/
  bounded : ∀ n s, After (Round g next) (start starts) n s → n ≤ starts.length + g.vertices.length
  answers : ∃ n s, After (Round g next) (start starts) n s ∧
    match answer with
    | .error v => step g next s = .unknown v
    | .ok found => ∃ reached, step g next s = .ended reached ∧ reached.Perm found ∧
        n = starts.length + found.length

variable {g : Digraph α} {next : α → List α} {starts : List α} {n : Nat} {s s' : Spread α}

/-! ## §2. One round. -/

/-- What looking at some vertices in turn adds. -/
theorem exists_foldl_meet (ws : List α) (s : Spread α) (hnodup : s.reached.Nodup) :
    ∃ found, ws.foldl meet s = ⟨s.reached ++ found, found.reverse ++ s.stack⟩ ∧
      (s.reached ++ found).Nodup ∧ (∀ w ∈ found, w ∈ ws) ∧
      ∀ w ∈ ws, w ∈ s.reached ++ found := by
  induction ws generalizing s with
  | nil => exact ⟨[], by simp, by simpa using hnodup, by simp, by simp⟩
  | cons v ws ih =>
    rw [List.foldl_cons]
    by_cases hv : v ∈ s.reached
    · have hmeet : s.meet v = s := if_pos hv
      obtain ⟨found, hfold, hfound, hsub, hall⟩ := ih s hnodup
      refine ⟨found, by rw [hmeet, hfold], hfound, ?_, ?_⟩
      · intro w hw
        exact List.mem_cons_of_mem v (hsub w hw)
      · intro w hw
        rcases List.mem_cons.1 hw with rfl | hw
        · exact List.mem_append_left found hv
        · exact hall w hw
    · have hmeet : s.meet v = ⟨s.reached ++ [v], v :: s.stack⟩ := if_neg hv
      have hnodup' : (s.reached ++ [v]).Nodup :=
        List.nodup_append'.2 ⟨hnodup, List.nodup_singleton v, by simpa using hv⟩
      obtain ⟨found, hfold, hfound, hsub, hall⟩ := ih ⟨s.reached ++ [v], v :: s.stack⟩ hnodup'
      simp only [List.append_assoc, List.singleton_append] at hfold hfound hall
      refine ⟨v :: found, ?_, hfound, ?_, ?_⟩
      · rw [hmeet, hfold]
        simp
      · intro w hw
        rcases List.mem_cons.1 hw with rfl | hw
        · exact List.mem_cons_self
        · exact List.mem_cons_of_mem v (hsub w hw)
      · intro w hw
        rcases List.mem_cons.1 hw with rfl | hw
        · simp
        · exact hall w hw

/-- A round takes a vertex of the graph off the stack. -/
theorem exists_of_step_eq_next (hnodup : s.reached.Nodup) (h : step g next s = .next s') :
    ∃ v stack found, s.stack = v :: stack ∧ v ∈ g.vertices ∧
      s' = ⟨s.reached ++ found, found.reverse ++ stack⟩ ∧ (s.reached ++ found).Nodup ∧
      (∀ w ∈ found, w ∈ next v) ∧ ∀ w ∈ next v, w ∈ s.reached ++ found := by
  obtain ⟨reached, stack⟩ := s
  match stack, h with
  | v :: stack, h =>
    simp only [step] at h
    split at h
    next hv =>
      injection h with h
      obtain ⟨found, hfold, hfound, hsub, hall⟩ := exists_foldl_meet (next v) ⟨reached, stack⟩ hnodup
      exact ⟨v, stack, found, rfl, hv, by rw [← h, hfold], hfound, hsub, hall⟩
    next => exact absurd h (by simp)

/-- The search gives up at what is next on its stack and is no vertex. -/
theorem exists_of_step_eq_unknown {v : α} (h : step g next s = .unknown v) :
    ∃ stack, s.stack = v :: stack ∧ v ∉ g.vertices := by
  obtain ⟨reached, stack⟩ := s
  match stack, h with
  | u :: stack, h =>
    simp only [step] at h
    split at h
    next => exact absurd h (by simp)
    next hu =>
      injection h with h
      exact ⟨stack, by rw [h], h ▸ hu⟩

theorem eq_of_step_eq_ended {reached : List α} (h : step g next s = .ended reached) :
    s = ⟨reached, []⟩ := by
  obtain ⟨reached', stack⟩ := s
  match stack, h with
  | [], h =>
    injection h with h
    exact h ▸ rfl
  | v :: stack, h =>
    simp only [step] at h
    split at h
    next => exact absurd h (by simp)
    next => exact absurd h (by simp)

/-! ## §3. What every round keeps true. -/

/-- What holds after `n` rounds. -/
structure Sound (g : Digraph α) (next : α → List α) (starts : List α) (n : Nat)
    (s : Spread α) : Prop where
  /-- No vertex is noted twice. -/
  nodup : s.reached.Nodup
  places : ∀ w ∈ s.reached, w ∈ g.vertices
  /-- There is a path to everything noted. -/
  leads : ∀ w ∈ s.reached, ∃ a ∈ starts, Relation.TransGen (fun a b => b ∈ next a) a w
  /-- On the stack are vertices noted, and under them the starting points whose turn has not come;
  the others are vertices. -/
  pending : ∃ noted past rest, s.stack = noted ++ rest ∧ starts.reverse = past ++ rest ∧
    (∀ w ∈ noted, w ∈ s.reached) ∧ ∀ a ∈ past, a ∈ g.vertices
  /-- The neighbours of what is off the stack are noted. -/
  covered : ∀ a, a ∈ starts ∨ a ∈ s.reached → a ∈ s.stack ∨ ∀ w ∈ next a, w ∈ s.reached
  /-- Each round takes one vertex off the stack, and puts on it what it notes. -/
  balance : n + s.stack.length = starts.length + s.reached.length

omit [DecidableEq α] in
/-- Before the first round nothing is reached, and the starting points are pending. -/
theorem sound_start (g : Digraph α) (next : α → List α) (starts : List α) :
    Sound g next starts 0 (start starts) where
  nodup := List.nodup_nil
  places := by simp [start]
  leads := by simp [start]
  pending := ⟨[], [], starts.reverse, rfl, rfl, by simp, by simp⟩
  covered := by
    intro a ha
    exact .inl (List.mem_reverse.2 (ha.resolve_right (by simp [start])))
  balance := by simp [start]

omit [DecidableEq α] in
/-- What is on the stack is a starting point or noted. -/
theorem Sound.mem_of_mem_stack (hs : Sound g next starts n s) {a : α} (ha : a ∈ s.stack) :
    a ∈ starts ∨ a ∈ s.reached := by
  obtain ⟨noted, past, rest, hstack, hstarts, hnoted, -⟩ := hs.pending
  rw [hstack] at ha
  rcases List.mem_append.1 ha with ha | ha
  · exact .inr (hnoted a ha)
  · left
    rw [← List.mem_reverse, hstarts]
    exact List.mem_append_right past ha

/-- **A round keeps true what holds.** -/
theorem Sound.round (hnext : ∀ a b, b ∈ next a → b ∈ g.vertices)
    (hs : Sound g next starts n s) (h : Round g next s s') :
    Sound g next starts (n + 1) s' := by
  obtain ⟨v, stack, found, hstack, hv, rfl, hnodup, hsub, hall⟩ :=
    exists_of_step_eq_next hs.nodup h
  constructor
  · exact hnodup
  · intro w hw
    rcases List.mem_append.1 hw with hw | hw
    · exact hs.places w hw
    · exact hnext v w (hsub w hw)
  · intro w hw
    rcases List.mem_append.1 hw with hw | hw
    · exact hs.leads w hw
    · -- by an edge from `v`, which is a starting point or can be reached itself
      rcases hs.mem_of_mem_stack (hstack ▸ List.mem_cons_self) with hstart | hreached
      · exact ⟨v, hstart, .single (hsub w hw)⟩
      · obtain ⟨a, ha, hav⟩ := hs.leads v hreached
        exact ⟨a, ha, hav.tail (hsub w hw)⟩
  · obtain ⟨noted, past, rest, hsplit, hstarts, hnoted, hpast⟩ := hs.pending
    have hfound : ∀ w ∈ found.reverse, w ∈ s.reached ++ found := by
      intro w hw
      exact List.mem_append_right s.reached (List.mem_reverse.1 hw)
    rw [hstack] at hsplit
    rcases List.cons_eq_append_iff.1 hsplit with ⟨rfl, rfl⟩ | ⟨noted', rfl, rfl⟩
    · -- `v` is the starting point whose turn it is
      refine ⟨found.reverse, past ++ [v], stack, rfl, by simpa using hstarts, hfound, ?_⟩
      intro a ha
      rcases List.mem_append.1 ha with ha | ha
      · exact hpast a ha
      · rw [List.mem_singleton.1 ha]
        exact hv
    · refine ⟨found.reverse ++ noted', past, rest, by simp, hstarts, ?_, hpast⟩
      intro w hw
      rcases List.mem_append.1 hw with hw | hw
      · exact hfound w hw
      · exact List.mem_append_left found (hnoted w (List.mem_cons_of_mem v hw))
  · intro a ha
    by_cases hav : a = v
    · exact .inr (hav ▸ hall)
    · have hold : a ∈ found ∨ (a ∈ starts ∨ a ∈ s.reached) := by
        rcases ha with ha | ha
        · exact .inr (.inl ha)
        · rcases List.mem_append.1 ha with ha | ha
          · exact .inr (.inr ha)
          · exact .inl ha
      rcases hold with hfound | hold
      · exact .inl (List.mem_append_left stack (List.mem_reverse.2 hfound))
      · rcases hs.covered a hold with hon | hdone
        · rw [hstack] at hon
          exact .inl (List.mem_append_right _ ((List.mem_cons.1 hon).resolve_left hav))
        · exact .inr fun w hw => List.mem_append_left found (hdone w hw)
  · have hbalance := hs.balance
    rw [hstack] at hbalance
    simp only [List.length_cons, List.length_append, List.length_reverse] at hbalance ⊢
    omega

/-- Every number of rounds keeps the invariant, with that number in its balance. -/
theorem sound_after (hnext : ∀ a b, b ∈ next a → b ∈ g.vertices)
    (h : After (Round g next) (start starts) n s) : Sound g next starts n s := by
  induction h with
  | start => exact sound_start g next starts
  | next _ hround ih => exact ih.round hnext hround

/-! ## §4. The end of the search. -/

omit [DecidableEq α] in
/-- No more is noted than there are vertices. -/
theorem Sound.le (hs : Sound g next starts n s) : n ≤ starts.length + g.vertices.length := by
  have hreached : s.reached.length ≤ g.vertices.length :=
    (List.subperm_of_subset hs.nodup hs.places).length_le
  have hbalance := hs.balance
  omega

omit [DecidableEq α] in
/-- Once the stack is empty, everything that a path reaches is noted. -/
theorem Sound.mem_reached_iff (hs : Sound g next starts n s) (hstack : s.stack = []) {w : α} :
    w ∈ s.reached ↔ ∃ a ∈ starts, Relation.TransGen (fun a b => b ∈ next a) a w := by
  have hcovered : ∀ a, a ∈ starts ∨ a ∈ s.reached → ∀ w ∈ next a, w ∈ s.reached := by
    intro a ha
    exact (hs.covered a ha).resolve_left (by simp [hstack])
  refine ⟨hs.leads w, ?_⟩
  rintro ⟨a, ha, haw⟩
  induction haw with
  | single hab => exact hcovered a (.inl ha) _ hab
  | tail _ hbc ih => exact hcovered _ (.inr ih) _ hbc

/-- The starting point that ends the search is the last one that is no vertex. -/
theorem Sound.find?_starts (hs : Sound g next starts n s) {v : α} {stack : List α}
    (hstack : s.stack = v :: stack) (hv : v ∉ g.vertices) :
    starts.reverse.find? (· ∉ g.vertices) = some v := by
  obtain ⟨noted, past, rest, hsplit, hstarts, hnoted, hpast⟩ := hs.pending
  rw [hstack] at hsplit
  rcases List.cons_eq_append_iff.1 hsplit with ⟨-, rfl⟩ | ⟨noted', rfl, -⟩
  · rw [List.find?_eq_some_iff_append]
    exact ⟨by simpa using hv, past, stack, hstarts, by simpa using hpast⟩
  · -- what is noted is a vertex
    exact absurd (hs.places v (hnoted v List.mem_cons_self)) hv

/-- **The search with a stack ends, and with the closure.** -/
theorem ends_closure (hnext : ∀ a b, b ∈ next a → b ∈ g.vertices) :
    Ends g next starts (g.closure next starts) := by
  have hbounded : ∀ n s, After (Round g next) (start starts) n s →
      n ≤ starts.length + g.vertices.length := by
    intro n s h
    exact (sound_after hnext h).le
  refine ⟨hbounded, ?_⟩
  obtain ⟨n, s, hafter, hlast⟩ := After.exists_last hbounded
  have hs := sound_after hnext hafter
  refine ⟨n, s, hafter, ?_⟩
  cases hstep : step g next s with
  | next s' => exact absurd hstep (hlast s')
  | unknown v =>
    obtain ⟨stack, hstack, hv⟩ := exists_of_step_eq_unknown hstep
    have hclosure : g.closure next starts = .error v := by
      unfold closure
      rw [hs.find?_starts hstack hv]
    rw [hclosure]
  | ended reached =>
    obtain rfl := eq_of_step_eq_ended hstep
    obtain ⟨noted, past, rest, hsplit, hstarts, -, hpast⟩ := hs.pending
    obtain ⟨-, rfl⟩ := List.append_eq_nil_iff.1 hsplit.symm
    rw [List.append_nil] at hstarts
    have hvertices : ∀ a ∈ starts, a ∈ g.vertices := by
      intro a ha
      exact hpast a (hstarts ▸ List.mem_reverse.2 ha)
    rw [closure_eq_ok hvertices]
    -- both are without repeats, and have what a path reaches
    have hperm : reached.Perm (spread next g.vertices starts.reverse) := by
      rw [List.perm_ext_iff_of_nodup hs.nodup (nodup_spread g.vertices_nodup)]
      intro w
      rw [hs.mem_reached_iff rfl, mem_spread_iff hnext]
      simp only [List.mem_reverse]
    refine ⟨reached, rfl, hperm, ?_⟩
    rw [← hperm.length_eq]
    exact hs.balance

end Spread

/-! ## §5. The law of the closures. -/

/-- What the answer for some starting points has to be, if `leads` tells what a vertex leads to. -/
structure IsClosure (g : Digraph α) (leads : α → α → Prop) (starts : List α)
    (answer : Except α (List α)) : Prop where
  /-- It fails exactly if a starting point is no vertex. -/
  fails_iff : (∃ v, answer = .error v) ↔ ∃ s ∈ starts, s ∉ g.vertices
  /-- Otherwise it has the vertices that a starting point leads to, each of them once. -/
  finds : ∀ found, answer = .ok found →
    found.Nodup ∧ ∀ w, w ∈ found ↔ ∃ s ∈ starts, leads s w

/-- A search along any neighbours answers with what they lead to. -/
theorem isClosure_closure {g : Digraph α} {next : α → List α} {starts : List α}
    (hnext : ∀ a b, b ∈ next a → b ∈ g.vertices) :
    IsClosure g (Relation.TransGen fun a b => b ∈ next a) starts (g.closure next starts) := by
  refine ⟨exists_closure_eq_error_iff, ?_⟩
  intro found hfound
  have hvertices : ∀ s ∈ starts, s ∈ g.vertices := by
    intro s hs
    by_contra hout
    obtain ⟨v, hv⟩ : ∃ v, g.closure next starts = .error v :=
      exists_closure_eq_error_iff.2 ⟨s, hs, hout⟩
    rw [hv] at hfound
    exact absurd hfound (by simp)
  rw [closure_eq_ok hvertices] at hfound
  injection hfound with hfound
  subst hfound
  refine ⟨nodup_spread g.vertices_nodup, ?_⟩
  intro w
  rw [mem_spread_iff hnext]
  simp only [List.mem_reverse]

/-- The ancestors of some vertices are what leads to one of them. -/
theorem isClosure_ancestors (g : Digraph α) (starts : List α) :
    IsClosure g (fun s u => g.Leads u s) starts (g.ancestors starts) := by
  rw [← transGen_predecessors]
  exact isClosure_closure mem_vertices_of_mem_predecessors

/-- The descendants of some vertices are what one of them leads to. -/
theorem isClosure_descendants (g : Digraph α) (starts : List α) :
    IsClosure g g.Leads starts (g.descendants starts) := by
  rw [← transGen_successors]
  exact isClosure_closure mem_vertices_of_mem_successors

/-- The closure of one vertex, if it is one, has what it leads to. -/
theorem IsClosure.exists_mem_iff {g : Digraph α} {leads : α → α → Prop} {s w : α}
    {answer : Except α (List α)} (h : IsClosure g leads [s] answer) :
    (∃ found, answer = .ok found ∧ w ∈ found) ↔ s ∈ g.vertices ∧ leads s w := by
  cases answer with
  | error v =>
    obtain ⟨s', hs', hout⟩ := h.fails_iff.1 ⟨v, rfl⟩
    rw [List.mem_singleton.1 hs'] at hout
    simp [hout]
  | ok found =>
    have hs : s ∈ g.vertices := by
      by_contra hout
      obtain ⟨v, hv⟩ := h.fails_iff.2 ⟨s, List.mem_singleton_self s, hout⟩
      exact absurd hv (by simp)
    have hmem := (h.finds found rfl).2 w
    simp only [List.mem_singleton, exists_eq_left] at hmem
    simp [hs, hmem]

/-- **Searching with a stack, against the edges or along them, ends and gives the ancestors or the
descendants: an error exactly if a starting point is no vertex, and otherwise just the vertices
with a path to one of the starting points, or from one.  What `u` leads to are the vertices whose
ancestor is `u`.** -/
theorem closures_follow_paths (g : Digraph α) (starts : List α) :
    (Spread.Ends g g.predecessors starts (g.ancestors starts) ∧
        IsClosure g (fun s u => g.Leads u s) starts (g.ancestors starts)) ∧
      (Spread.Ends g g.successors starts (g.descendants starts) ∧
        IsClosure g (fun s v => g.Leads s v) starts (g.descendants starts)) ∧
      ∀ u v, (∃ found, g.descendants [u] = .ok found ∧ v ∈ found) ↔
        ∃ found, g.ancestors [v] = .ok found ∧ u ∈ found := by
  refine ⟨⟨Spread.ends_closure mem_vertices_of_mem_predecessors, isClosure_ancestors g starts⟩,
    ⟨Spread.ends_closure mem_vertices_of_mem_successors, isClosure_descendants g starts⟩, ?_⟩
  intro u v
  rw [(isClosure_descendants g [u]).exists_mem_iff, (isClosure_ancestors g [v]).exists_mem_iff]
  -- both ends of a path are vertices
  constructor
  · rintro ⟨-, huv⟩
    exact ⟨huv.target_mem, huv⟩
  · rintro ⟨-, huv⟩
    exact ⟨huv.source_mem, huv⟩

/-- A starting point given twice is found, since it is on a cycle, and one that no path comes back
to is not. -/
theorem closures_follow_paths_lasso :
    lasso.descendants [3, 0, 3] = .ok [1, 2, 9, 3] ∧
      (∃ v, lasso.descendants [3, 8] = .error v) ∧
      [1, 2, 9, 3].Nodup ∧ ∀ w, w ∈ [1, 2, 9, 3] ↔ ∃ s ∈ [3, 0, 3], lasso.Leads s w := by
  have h : lasso.descendants [3, 0, 3] = .ok [1, 2, 9, 3] := by cbv
  refine ⟨h, ?_, (closures_follow_paths lasso [3, 0, 3]).2.1.2.finds _ h⟩
  exact (closures_follow_paths lasso [3, 8]).2.1.2.fails_iff.2 ⟨8, by simp, by decide⟩

end BuildPlan.Digraph
