/-
  BuildPlan.Proofs.Digraph.Walk
  ─────────────────────────────
  **WHAT THE ORDERING WALK KEEPS TRUE.**

  The walk makes four kinds of moves (`Move`).  After any number of them
  (`Reached`), the state is `Sound`:

      places     every vertex is on the path, fresh or finished, and only one of these
      linked     each vertex of the path has an edge to the one after it
      settled    a successor looked at is finished, or is the next vertex of the path
      closed     the successors of a finished vertex stand behind it

  The walk ends in a reached state, either complete or with a successor that is
  on the path (`run_ends`).
-/
import BuildPlan.Digraph.Order
import BuildPlan.Proofs.Digraph.Path
import Mathlib.Data.List.Perm.Basic

namespace BuildPlan.Digraph

variable {α : Type} [DecidableEq α]

namespace Ordering

/-! ## §1. Moves. -/

/-- One move of the walk. -/
inductive Move (g : Digraph α) : Ordering α → Ordering α → Prop
  /-- With nothing on the path, the first fresh vertex is entered. -/
  | start {v : α} {fresh finished : List α} :
      Move g ⟨v :: fresh, [], finished⟩ ⟨fresh, [⟨v, g.successors v⟩], finished⟩
  /-- A vertex whose successors are all looked at is finished. -/
  | finish {v : α} {fresh finished : List α} {below : List (Frame α)} :
      Move g ⟨fresh, ⟨v, []⟩ :: below, finished⟩ ⟨fresh, below, v :: finished⟩
  /-- A fresh successor is entered. -/
  | enter {v w : α} {ws fresh finished : List α} {below : List (Frame α)} (hw : w ∈ fresh) :
      Move g ⟨fresh, ⟨v, w :: ws⟩ :: below, finished⟩
        ⟨fresh.erase w, ⟨w, g.successors w⟩ :: ⟨v, ws⟩ :: below, finished⟩
  /-- A finished successor is passed over. -/
  | pass {v w : α} {ws fresh finished : List α} {below : List (Frame α)} (hw : w ∉ fresh)
      (hfinished : w ∈ finished) :
      Move g ⟨fresh, ⟨v, w :: ws⟩ :: below, finished⟩ ⟨fresh, ⟨v, ws⟩ :: below, finished⟩

/-- A step to another state is a move. -/
theorem step_eq_next_iff {g : Digraph α} {s s' : Ordering α} :
    step g s = .next s' ↔ Move g s s' := by
  constructor
  · intro h
    obtain ⟨fresh, frames, finished⟩ := s
    -- the shapes that `step` tells apart, less the one that completes the walk
    match frames, fresh, h with
    | [], v :: rest, h =>
      injection h with h
      exact h ▸ Move.start
    | ⟨v, []⟩ :: below, fresh, h =>
      injection h with h
      exact h ▸ Move.finish
    | ⟨v, w :: ws⟩ :: below, fresh, h =>
      simp only [step] at h
      split at h
      next hw =>
        injection h with h
        exact h ▸ Move.enter hw
      next hw =>
        split at h
        next hfinished =>
          injection h with h
          exact h ▸ Move.pass hw hfinished
        next => exact absurd h (by simp)
  · intro h
    cases h with
    | start => rfl
    | finish => rfl
    | enter hw => simp [step, hw]
    | pass hw hfinished => simp [step, hw, hfinished]

theorem eq_of_step_eq_complete {g : Digraph α} {s : Ordering α} {order : List α}
    (h : step g s = .complete order) : s = ⟨[], [], order⟩ := by
  obtain ⟨fresh, frames, finished⟩ := s
  match frames, fresh, h with
  | [], [], h =>
    injection h with h
    exact h ▸ rfl
  | ⟨v, w :: ws⟩ :: below, fresh, h =>
    simp only [step] at h
    split at h
    next => exact absurd h (by simp)
    next =>
      split at h
      next => exact absurd h (by simp)
      next => exact absurd h (by simp)

/-- The walk is blocked by a successor that is neither fresh nor finished. -/
theorem exists_of_step_eq_blocked {g : Digraph α} {s : Ordering α} {cycle : List α}
    (h : step g s = .blocked cycle) :
    ∃ v w ws below, s.frames = ⟨v, w :: ws⟩ :: below ∧ w ∉ s.fresh ∧ w ∉ s.finished ∧
      cycle = CycleSearch.closing w s.path := by
  obtain ⟨fresh, frames, finished⟩ := s
  match frames, fresh, h with
  | [], [], h => exact absurd h (by simp [step])
  | [], _ :: _, h => exact absurd h (by simp [step])
  | ⟨v, w :: ws⟩ :: below, fresh, h =>
    simp only [step] at h
    split at h
    next => exact absurd h (by simp)
    next hw =>
      split at h
      next => exact absurd h (by simp)
      next hfinished =>
        injection h with h
        exact ⟨v, w, ws, below, rfl, hw, hfinished, h.symm⟩

theorem run_eq (g : Digraph α) (s : Ordering α) :
    run g s =
      match step g s with
      | .complete order => .ok order
      | .blocked cycle => .error cycle
      | .next s' => run g s' := by
  rw [run]
  split <;> rename_i h <;> rw [h]

/-- The states that the walk comes through. -/
def Reached (g : Digraph α) (s : Ordering α) : Prop := Relation.ReflTransGen (Move g) (start g) s

/-- The walk goes on to a state in which it is complete or blocked. -/
theorem run_ends (g : Digraph α) (s : Ordering α) :
    ∃ t, Relation.ReflTransGen (Move g) s t ∧
      ((∃ order, step g t = .complete order ∧ run g s = .ok order) ∨
        ∃ cycle, step g t = .blocked cycle ∧ run g s = .error cycle) := by
  fun_induction run g s with
  | case1 s order h => exact ⟨s, .refl, .inl ⟨order, h, rfl⟩⟩
  | case2 s cycle h => exact ⟨s, .refl, .inr ⟨cycle, h, rfl⟩⟩
  | case3 s s' h ih =>
    obtain ⟨t, ht, hend⟩ := ih
    exact ⟨t, .head (step_eq_next_iff.1 h) ht, hend⟩

/-- From any state that the walk comes through it goes on to the build order. -/
theorem Reached.run_eq_buildOrder {g : Digraph α} {s : Ordering α} (h : Reached g s) :
    run g s = g.buildOrder := by
  induction h with
  | refl => rfl
  | @tail s s' _ hmove ih => rw [← ih, run_eq g s, step_eq_next_iff.2 hmove]

theorem reached_of_buildOrder {g : Digraph α} {order : List α} (h : g.buildOrder = .ok order) :
    Reached g ⟨[], [], order⟩ := by
  obtain ⟨t, ht, ⟨order', hstep, hrun⟩ | ⟨cycle, -, hrun⟩⟩ := run_ends g (start g)
  · unfold buildOrder at h
    rw [hrun] at h
    injection h with h
    rwa [eq_of_step_eq_complete hstep, h] at ht
  · unfold buildOrder at h
    rw [hrun] at h
    exact absurd h (by simp)

/-- A cycle is reported from a state that the walk comes to and is blocked at. -/
theorem exists_blocked_of_buildOrder {g : Digraph α} {cycle : List α}
    (h : g.buildOrder = .error cycle) : ∃ t, Reached g t ∧ step g t = .blocked cycle := by
  obtain ⟨t, ht, ⟨order, -, hrun⟩ | ⟨cycle', hstep, hrun⟩⟩ := run_ends g (start g)
  · unfold buildOrder at h
    rw [hrun] at h
    exact absurd h (by simp)
  · unfold buildOrder at h
    rw [hrun] at h
    injection h with h
    exact ⟨t, ht, h ▸ hstep⟩

/-! ## §2. What holds of a reached state. -/

/-- The successors looked at of every vertex of the path are finished or are `above`, the vertex
that the path goes on to. -/
def Settled (g : Digraph α) (finished : List α) : Option α → List (Frame α) → Prop
  | _, [] => True
  | above, f :: below =>
    (∃ seen, g.successors f.vertex = seen ++ f.pending ∧
      ∀ w ∈ seen, w ∈ finished ∨ above = some w) ∧ Settled g finished (some f.vertex) below

/-- The successors of every member of the list stand behind it. -/
def Closed (g : Digraph α) : List α → Prop
  | [] => True
  | v :: l => (∀ w ∈ g.successors v, w ∈ l) ∧ Closed g l

/-- What holds of every state that the walk comes through. -/
structure Sound (g : Digraph α) (s : Ordering α) : Prop where
  /-- Every vertex has one place: on the path, fresh or finished. -/
  places : (s.path ++ (s.fresh ++ s.finished)).Perm g.vertices
  /-- The path, read from its end, follows edges backwards. -/
  linked : s.path.IsChain fun v u => g.Edge u v
  /-- Successors looked at are finished, or next on the path. -/
  settled : Settled g s.finished none s.frames
  /-- Successors of finished vertices are finished, and were so earlier. -/
  closed : Closed g s.finished

section

variable {g : Digraph α} {s : Ordering α} {v : α}

/-- No vertex has two places. -/
theorem Sound.nodup (hs : Sound g s) : (s.path ++ (s.fresh ++ s.finished)).Nodup :=
  hs.places.nodup_iff.2 g.vertices_nodup

theorem Sound.path_nodup (hs : Sound g s) : s.path.Nodup := (List.nodup_append'.1 hs.nodup).1

theorem Sound.fresh_nodup (hs : Sound g s) : s.fresh.Nodup :=
  (List.nodup_append'.1 (List.nodup_append'.1 hs.nodup).2.1).1

theorem Sound.not_mem_finished_of_mem_fresh (hs : Sound g s) (hv : v ∈ s.fresh) :
    v ∉ s.finished :=
  (List.nodup_append'.1 (List.nodup_append'.1 hs.nodup).2.1).2.2 hv

theorem Sound.not_mem_fresh_of_mem_path (hs : Sound g s) (hv : v ∈ s.path) : v ∉ s.fresh :=
  fun hfresh => (List.nodup_append'.1 hs.nodup).2.2 hv (List.mem_append_left _ hfresh)

theorem Sound.not_mem_finished_of_mem_path (hs : Sound g s) (hv : v ∈ s.path) :
    v ∉ s.finished :=
  fun hfinished => (List.nodup_append'.1 hs.nodup).2.2 hv (List.mem_append_right _ hfinished)

/-- A vertex that is neither fresh nor finished can only be on the path. -/
theorem Sound.mem_path (hs : Sound g s) (hv : v ∈ g.vertices) (hfresh : v ∉ s.fresh)
    (hfinished : v ∉ s.finished) : v ∈ s.path := by
  have hmem := hs.places.mem_iff.2 hv
  rw [List.mem_append, List.mem_append] at hmem
  exact hmem.resolve_right (not_or.2 ⟨hfresh, hfinished⟩)

end

theorem Settled.mono {g : Digraph α} {finished : List α} {v : α} {frames : List (Frame α)} :
    ∀ {above : Option α}, Settled g finished above frames →
      Settled g (v :: finished) above frames := by
  induction frames with
  | nil => intro above _; trivial
  | cons f below ih =>
    intro above h
    obtain ⟨⟨seen, hsucc, hseen⟩, hbelow⟩ := h
    refine ⟨⟨seen, hsucc, ?_⟩, ih hbelow⟩
    intro w hw
    exact (hseen w hw).imp_left (List.mem_cons_of_mem v)

/-- When the vertex above is finished, the path ends below it. -/
theorem Settled.finish {g : Digraph α} {finished : List α} {v : α} {below : List (Frame α)}
    (h : Settled g finished (some v) below) : Settled g (v :: finished) none below := by
  match below, h with
  | [], _ => trivial
  | f :: below, ⟨⟨seen, hsucc, hseen⟩, hbelow⟩ =>
    refine ⟨⟨seen, hsucc, ?_⟩, hbelow.mono⟩
    -- the vertex above was the only one not yet finished
    intro w hw
    left
    rcases hseen w hw with hfinished | habove
    · exact List.mem_cons_of_mem v hfinished
    · injection habove with habove
      exact habove ▸ List.mem_cons_self

/-- The next successor of a vertex counts as looked at once it is finished or entered. -/
theorem Settled.look {g : Digraph α} {finished ws : List α} {v w : α} {below : List (Frame α)}
    {above : Option α} (h : Settled g finished none (⟨v, w :: ws⟩ :: below))
    (hw : w ∈ finished ∨ above = some w) : Settled g finished above (⟨v, ws⟩ :: below) := by
  obtain ⟨⟨seen, hsucc, hseen⟩, hbelow⟩ := h
  refine ⟨⟨seen ++ [w], by rw [hsucc]; simp, ?_⟩, hbelow⟩
  intro u hu
  rcases List.mem_append.1 hu with hu | hu
  · exact .inl ((hseen u hu).resolve_right (by simp))
  · rw [List.mem_singleton.1 hu]
    exact hw

/-- The next vertex to look at is a successor of the vertex that the path ends in. -/
theorem Settled.edge {g : Digraph α} {finished ws : List α} {v w : α} {below : List (Frame α)}
    {above : Option α} (h : Settled g finished above (⟨v, w :: ws⟩ :: below)) : g.Edge v w := by
  obtain ⟨⟨seen, hsucc, -⟩, -⟩ := h
  have hmem : w ∈ g.successors v := by
    rw [hsucc]
    simp
  exact mem_successors.1 hmem

/-- The invariant holds before the first step: all vertices are fresh. -/
theorem sound_start (g : Digraph α) : Sound g (start g) where
  places := by
    show ([] ++ (g.vertices ++ [])).Perm g.vertices
    simp
  linked := List.IsChain.nil
  settled := trivial
  closed := trivial

/-- **A move leads from a sound state to a sound state.** -/
theorem Sound.move {g : Digraph α} {s s' : Ordering α} (hs : Sound g s) (h : Move g s s') :
    Sound g s' := by
  obtain ⟨hplaces, hlinked, hsettled, hclosed⟩ := hs
  cases h with
  | start =>
    refine ⟨hplaces, List.isChain_singleton _, ⟨⟨[], rfl, ?_⟩, trivial⟩, hclosed⟩
    -- no successor of the new vertex is looked at yet
    intro w hw
    exact absurd hw (by simp)
  | @finish v fresh finished below =>
    obtain ⟨⟨seen, hsucc, hseen⟩, hbelow⟩ := hsettled
    refine ⟨?_, hlinked.tail, hbelow.finish, ?_, hclosed⟩
    · -- `v` goes from the path to the finished vertices
      refine List.Perm.trans ?_ hplaces
      show (below.map Frame.vertex ++ (fresh ++ v :: finished)).Perm
        (v :: (below.map Frame.vertex ++ (fresh ++ finished)))
      rw [← List.append_assoc, ← List.append_assoc]
      exact List.perm_middle
    · -- all successors of `v` are looked at, and no vertex is above it
      intro w hw
      rw [hsucc, List.append_nil] at hw
      exact (hseen w hw).resolve_right (by simp)
  | @enter v w ws fresh finished below hw =>
    refine ⟨?_, ?_, ⟨⟨[], rfl, ?_⟩, hsettled.look (.inr rfl)⟩, hclosed⟩
    · -- `w` goes from the fresh vertices to the path
      refine List.Perm.trans ?_ hplaces
      show (w :: ((v :: below.map Frame.vertex) ++ (fresh.erase w ++ finished))).Perm
        ((v :: below.map Frame.vertex) ++ (fresh ++ finished))
      refine List.perm_middle.symm.trans (List.Perm.append_left _ ?_)
      show (w :: fresh.erase w ++ finished).Perm (fresh ++ finished)
      exact (List.perm_cons_erase hw).symm.append_right finished
    · exact List.isChain_cons_cons.2 ⟨hsettled.edge, hlinked⟩
    · intro u hu
      exact absurd hu (by simp)
  | pass hw hfinished =>
    exact ⟨hplaces, hlinked, hsettled.look (.inl hfinished), hclosed⟩

/-- The invariant holds at every state that the walk comes to. -/
theorem Reached.sound {g : Digraph α} {s : Ordering α} (h : Reached g s) : Sound g s := by
  induction h with
  | refl => exact sound_start g
  | tail _ hmove ih => exact ih.move hmove

end Ordering

end BuildPlan.Digraph
