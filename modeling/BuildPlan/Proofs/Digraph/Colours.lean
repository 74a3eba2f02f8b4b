/-
  BuildPlan.Proofs.Digraph.Colours
  ────────────────────────────────
  **THE DEPTH-FIRST WALK, ITS BOOKS KEPT APART.**

  The walk can be kept in four books, each written on its own: a colour for every vertex,
  the path, for each vertex of the path its successors not drawn, and the vertices that
  are finished.

      colour     unseen → on the path → done
      a step     draws a successor, asks its colour, and looks for its place on the path

  Nothing in their types says that the books agree, and where one has no entry for what
  another speaks of the walk is stuck.  But they are always the books of a state of the
  ordering walk (`exists_books`).  So they agree (`Consistent`), the walk is never stuck,
  and it ends with the build order or the first cycle; the search for a cycle is the same
  walk without the last of the books, which no step reads.  Every step uses up a starting
  point, a vertex of the path or a successor, so there are two for each vertex and one for
  each edge at most.
-/
import BuildPlan.Proofs.Digraph.FirstCycle
import BuildPlan.Proofs.Rounds
import Mathlib.Logic.Function.Basic

namespace BuildPlan.Digraph

variable {α : Type} [DecidableEq α]

/-! ## §1. The books. -/

/-- How far the walk has come with a vertex. -/
inductive Colour where
  | unseen
  | onPath
  | done
deriving DecidableEq, Repr

/-- How far a walk has come that keeps its books apart. -/
structure Traversal (α : Type) where
  /-- The starting points not tried. -/
  starts : List α
  /-- The colours entered. -/
  colour : α → Option Colour
  /-- The path from the last starting point, its end first. -/
  path : List α
  /-- Successors not drawn, those of the end of the path first. -/
  pending : List (List α)
  /-- The vertices finished, the last one first. -/
  finished : List α

/-- What one step comes to. -/
inductive Traversal.Step (α : Type) where
  | next (t : Traversal α)
  /-- The path has come back to itself; the first vertex of the cycle is repeated at the end. -/
  | closed (cycle : List α)
  /-- All starting points are tried. -/
  | exhausted (order : List α)
  /-- What a step looks up is not there. -/
  | stuck

namespace Traversal

/-- The books before the first step: every vertex is unseen. -/
def start (g : Digraph α) : Traversal α where
  starts := g.vertices
  colour := fun v => if v ∈ g.vertices then some .unseen else none
  path := []
  pending := []
  finished := []

/-- The path goes on to `v`. -/
def enter (g : Digraph α) (t : Traversal α) (v : α) : Step α :=
  if v ∈ g.vertices then
    .next { t with
      colour := Function.update t.colour v (some .onPath)
      path := v :: t.path
      pending := g.successors v :: t.pending }
  else .stuck

/-- The end of the path is finished. -/
def leave (t : Traversal α) : Step α :=
  match t.path with
  | [] => .stuck
  | v :: path =>
    .next { t with
      colour := Function.update t.colour v (some .done)
      path := path
      finished := v :: t.finished }

/-- The edge to `w` closes a cycle: the path from the place of `w` on, and `w` again. -/
def close (t : Traversal α) (w : α) : Step α :=
  match t.path.reverse.idxOf? w with
  | none => .stuck
  | some i => .closed (t.path.reverse.drop i ++ [w])

/-- One step: tries a starting point, leaves a vertex all whose successors are drawn, or draws the
next successor of the end of the path. -/
def step (g : Digraph α) (t : Traversal α) : Step α :=
  match t.pending with
  | [] =>
    match t.starts with
    | [] => .exhausted t.finished
    | v :: starts =>
      match t.colour v with
      | none => .stuck
      | some .unseen => enter g { t with starts := starts, path := [], pending := [] } v
      | some _ => .next { t with starts := starts }
  | [] :: more => leave { t with pending := more }
  | (w :: ws) :: more =>
    match t.colour w with
    | none => .stuck
    | some .onPath => close t w
    | some .unseen => enter g { t with pending := ws :: more } w
    | some .done => .next { t with pending := ws :: more }

/-- A step that the walk goes on after. -/
def Next (g : Digraph α) (t t' : Traversal α) : Prop := step g t = .next t'

/-- The books agree with each other and with the graph. -/
structure Consistent (g : Digraph α) (t : Traversal α) : Prop where
  /-- Each vertex of the path has its list of successors not drawn. -/
  length_eq : t.path.length = t.pending.length
  /-- No vertex is on the path twice. -/
  nodup : t.path.Nodup
  /-- The colour tells which vertices are on the path. -/
  mem_path_iff : ∀ v, v ∈ t.path ↔ t.colour v = some .onPath
  /-- The path, read from its end, follows edges backwards. -/
  linked : t.path.IsChain fun v u => (u, v) ∈ g.edges
  /-- A successor drawn is done, or is the vertex that the path goes on to. -/
  drawn : ∀ i v rest, t.path[i]? = some v → t.pending[i]? = some rest →
    ∃ drawn, g.successors v = drawn ++ rest ∧
      ∀ w ∈ drawn, t.colour w = some .done ∨ ∃ j, j + 1 = i ∧ t.path[j]? = some w

end Traversal

/-- The place of a member is the number of those in front of it. -/
theorem idxOf?_append_cons {front tail : List α} {w : α} (hfront : w ∉ front) :
    (front ++ w :: tail).idxOf? w = some front.length := by
  induction front with
  | nil => simp [List.idxOf?_cons]
  | cons v front ih =>
    rw [List.mem_cons, not_or] at hfront
    obtain ⟨hv, hfront⟩ := hfront
    rw [List.cons_append, List.idxOf?_cons, ih hfront]
    simp [Ne.symm hv]

/-- A vertex on the path has its place there. -/
theorem Traversal.close_eq {t : Traversal α} {w : α} (hnodup : t.path.Nodup) (hw : w ∈ t.path) :
    t.close w = .closed (CycleSearch.closing w t.path) := by
  obtain ⟨front, tail, hpath, hfront⟩ := List.eq_append_cons_of_mem hw
  have hreverse : t.path.reverse = tail.reverse ++ w :: front.reverse := by
    rw [hpath]
    simp
  have htail : w ∉ tail := by
    rw [hpath] at hnodup
    exact (List.nodup_cons.1 (List.nodup_append'.1 hnodup).2.1).1
  have hindex : t.path.reverse.idxOf? w = some tail.reverse.length := by
    rw [hreverse]
    exact idxOf?_append_cons (by simpa using htail)
  unfold close
  rw [hindex]
  simp only [hreverse, List.drop_left]
  rw [hpath, closing_append_cons hfront]
  rfl

/-! ## §2. The books of a state of the ordering walk. -/

namespace Ordering

/-- The colour of a vertex in a state of the walk. -/
def colour (s : Ordering α) (v : α) : Option Colour :=
  if v ∈ s.fresh then some .unseen
  else if v ∈ s.finished then some .done
  else if v ∈ s.path then some .onPath
  else none

/-- A state of the walk and the starting points not tried, entered in the books. -/
def books (s : Ordering α) (starts : List α) : Traversal α where
  starts := starts
  colour := s.colour
  path := s.path
  pending := s.frames.map Frame.pending
  finished := s.finished

section

variable {g : Digraph α} {s : Ordering α} {v : α}

theorem colour_of_mem_fresh (hv : v ∈ s.fresh) : s.colour v = some .unseen := if_pos hv

theorem Sound.colour_of_mem_finished (hs : Sound g s) (hv : v ∈ s.finished) :
    s.colour v = some .done := by
  have hfresh : v ∉ s.fresh := fun h => hs.not_mem_finished_of_mem_fresh h hv
  unfold colour
  rw [if_neg hfresh, if_pos hv]

/-- A vertex has the colour of the path exactly if it is on the path. -/
theorem Sound.colour_eq_onPath_iff (hs : Sound g s) : s.colour v = some .onPath ↔ v ∈ s.path := by
  constructor
  · intro h
    unfold colour at h
    split at h
    next => exact absurd h (by simp)
    next =>
      split at h
      next => exact absurd h (by simp)
      next =>
        split at h
        next hpath => exact hpath
        next => exact absurd h (by simp)
  · intro hv
    unfold colour
    rw [if_neg (hs.not_mem_fresh_of_mem_path hv), if_neg (hs.not_mem_finished_of_mem_path hv),
      if_pos hv]

/-- Entering a fresh vertex changes its colour only. -/
theorem Sound.update_enter (hs : Sound g s) (hv : v ∈ s.fresh) {frames : List (Frame α)}
    (hpath : frames.map Frame.vertex = v :: s.path) :
    Function.update s.colour v (some .onPath) = colour ⟨s.fresh.erase v, frames, s.finished⟩ := by
  have hnodup := hs.fresh_nodup
  have hfinished := hs.not_mem_finished_of_mem_fresh hv
  funext u
  unfold colour path
  rw [hpath]
  by_cases huv : u = v
  · subst huv
    simp [hnodup.not_mem_erase, hfinished]
  · simp [List.mem_erase_of_ne huv, huv, path]

/-- Finishing the end of the path changes its colour only. -/
theorem Sound.update_finish {fresh finished pending : List α} {below : List (Frame α)}
    (hs : Sound g ⟨fresh, ⟨v, pending⟩ :: below, finished⟩) :
    Function.update (colour ⟨fresh, ⟨v, pending⟩ :: below, finished⟩) v (some .done) =
      colour ⟨fresh, below, v :: finished⟩ := by
  have hfresh : v ∉ fresh := hs.not_mem_fresh_of_mem_path List.mem_cons_self
  funext u
  unfold colour path
  by_cases huv : u = v
  · subst huv
    simp [hfresh]
  · simp [huv]

end

/-! ## §3. What a step does to the books. -/

/-- How many steps are ahead at most: one for each starting point not tried, for each vertex on the
path and each successor not drawn, and for each vertex not reached and each of its successors. -/
def ahead (g : Digraph α) (s : Ordering α) (starts : List α) : Nat :=
  starts.length + load s.frames + ((s.fresh.flatMap g.successors).length + s.fresh.length)

/-- A state that the walk comes through, and the starting points not tried. -/
structure Kept (g : Digraph α) (s : Ordering α) (starts : List α) : Prop where
  reached : Reached g s
  starts_mem : ∀ v ∈ starts, v ∈ g.vertices
  /-- The vertices not reached are to be tried, in order of discovery. -/
  fresh_eq : starts.filter (· ∈ s.fresh) = s.fresh

/-- A step does to the books what a step of the walk does to the state. -/
def Follows (g : Digraph α) (s : Ordering α) (starts : List α) : Prop :=
  match Traversal.step g (s.books starts) with
  | .next t => ∃ s' starts', t = s'.books starts' ∧ Kept g s' starts' ∧
      ahead g s starts = ahead g s' starts' + 1
  | .closed cycle => step g s = .blocked cycle
  | .exhausted order => step g s = .complete order
  | .stuck => False

/-- Taking one vertex out of the fresh ones leaves the others to be tried. -/
theorem filter_erase {starts fresh : List α} (hnodup : fresh.Nodup)
    (h : starts.filter (· ∈ fresh) = fresh) (v : α) :
    starts.filter (· ∈ fresh.erase v) = fresh.erase v := by
  calc starts.filter (· ∈ fresh.erase v)
      = (starts.filter (· ∈ fresh)).filter (· != v) := by
        rw [List.filter_filter]
        apply List.filter_congr
        intro u _
        rw [Bool.eq_iff_iff]
        simp [hnodup.mem_erase_iff]
    _ = fresh.erase v := by rw [h, hnodup.erase_eq_filter]

section

variable {g : Digraph α} {fresh finished starts ws : List α} {below : List (Frame α)} {v w : α}

/-- A move keeps the books if it crosses out only starting points that are no longer fresh. -/
theorem Kept.move {s s' : Ordering α} {starts' : List α} (h : Kept g s starts)
    (hmove : Move g s s') (hsub : ∀ v ∈ starts', v ∈ starts)
    (hfresh : starts'.filter (· ∈ s'.fresh) = s'.fresh) : Kept g s' starts' where
  reached := h.reached.tail hmove
  starts_mem := fun v hv => h.starts_mem v (hsub v hv)
  fresh_eq := hfresh

/-- With nothing on the path, a starting point not reached is entered. -/
theorem Kept.follows_start (h : Kept g ⟨fresh, [], finished⟩ (v :: starts)) (hv : v ∈ fresh) :
    Follows g ⟨fresh, [], finished⟩ (v :: starts) := by
  have hs := h.reached.sound
  have hvertex : v ∈ g.vertices := h.starts_mem v List.mem_cons_self
  -- it is the first of the vertices not reached
  obtain ⟨rest, rfl⟩ : ∃ rest, fresh = v :: rest := by
    have hfresh := h.fresh_eq
    rw [List.filter_cons_of_pos (by simpa using hv)] at hfresh
    exact ⟨_, hfresh.symm⟩
  have hnodup : (v :: rest).Nodup := hs.fresh_nodup
  have hrest : starts.filter (· ∈ rest) = rest := by
    have herase := filter_erase hnodup h.fresh_eq v
    rw [List.erase_cons_head] at herase
    rwa [List.filter_cons_of_neg (by simpa using (List.nodup_cons.1 hnodup).1)] at herase
  have hupdate : Function.update (colour ⟨v :: rest, [], finished⟩) v (some .onPath) =
      colour ⟨(v :: rest).erase v, [⟨v, g.successors v⟩], finished⟩ :=
    hs.update_enter List.mem_cons_self rfl
  have hstep : Traversal.step g (books ⟨v :: rest, [], finished⟩ (v :: starts)) =
      .next (books ⟨rest, [⟨v, g.successors v⟩], finished⟩ starts) := by
    have hcolour : colour ⟨v :: rest, [], finished⟩ v = some .unseen := colour_of_mem_fresh hv
    rw [List.erase_cons_head] at hupdate
    simp only [Traversal.step, books, List.map_nil, hcolour, Traversal.enter, if_pos hvertex,
      hupdate]
    rfl
  unfold Follows
  rw [hstep]
  refine ⟨_, _, rfl, h.move .start (fun _ => List.mem_cons_of_mem v) hrest, ?_⟩
  simp only [ahead, load, List.flatMap_cons, List.flatMap_nil, List.length_append, List.length_cons,
    List.length_nil]
  omega

/-- A starting point reached before is passed over. -/
theorem Kept.follows_skip (h : Kept g ⟨fresh, [], finished⟩ (v :: starts)) (hv : v ∉ fresh) :
    Follows g ⟨fresh, [], finished⟩ (v :: starts) := by
  have hs := h.reached.sound
  have hfinished : v ∈ finished := by
    by_contra hnot
    exact absurd (hs.mem_path (h.starts_mem v List.mem_cons_self) hv hnot) (by simp [path])
  have hstep : Traversal.step g (books ⟨fresh, [], finished⟩ (v :: starts)) =
      .next (books ⟨fresh, [], finished⟩ starts) := by
    have hcolour : colour ⟨fresh, [], finished⟩ v = some .done :=
      hs.colour_of_mem_finished hfinished
    simp only [Traversal.step, books, List.map_nil, hcolour]
  have hrest : starts.filter (· ∈ fresh) = fresh := by
    have hfresh := h.fresh_eq
    rwa [List.filter_cons_of_neg (by simpa using hv)] at hfresh
  unfold Follows
  rw [hstep]
  refine ⟨_, _, rfl, ⟨h.reached, ?_, hrest⟩, ?_⟩
  · intro u hu
    exact h.starts_mem u (List.mem_cons_of_mem v hu)
  · simp only [ahead, List.length_cons]
    omega

/-- The end of the path is finished. -/
theorem Kept.follows_finish (h : Kept g ⟨fresh, ⟨v, []⟩ :: below, finished⟩ starts) :
    Follows g ⟨fresh, ⟨v, []⟩ :: below, finished⟩ starts := by
  refine ⟨⟨fresh, below, v :: finished⟩, starts, ?_, h.move .finish (fun _ h => h) h.fresh_eq, ?_⟩
  · unfold books
    rw [← h.reached.sound.update_finish]
    rfl
  · simp only [ahead, load, List.flatMap_cons, List.nil_append, List.length_cons]
    omega

/-- A successor not reached is entered. -/
theorem Kept.follows_enter (h : Kept g ⟨fresh, ⟨v, w :: ws⟩ :: below, finished⟩ starts)
    (hw : w ∈ fresh) : Follows g ⟨fresh, ⟨v, w :: ws⟩ :: below, finished⟩ starts := by
  have hs := h.reached.sound
  have hstep : Traversal.step g (books ⟨fresh, ⟨v, w :: ws⟩ :: below, finished⟩ starts) =
      .next (books ⟨fresh.erase w, ⟨w, g.successors w⟩ :: ⟨v, ws⟩ :: below, finished⟩ starts) := by
    have hvertex : w ∈ g.vertices := g.target_mem _ hs.settled.edge
    have hcolour : colour ⟨fresh, ⟨v, w :: ws⟩ :: below, finished⟩ w = some .unseen :=
      colour_of_mem_fresh hw
    have hupdate : Function.update (colour ⟨fresh, ⟨v, w :: ws⟩ :: below, finished⟩) w
        (some .onPath) =
          colour ⟨fresh.erase w, ⟨w, g.successors w⟩ :: ⟨v, ws⟩ :: below, finished⟩ :=
      hs.update_enter hw rfl
    simp only [Traversal.step, books, List.map_cons, hcolour, Traversal.enter, if_pos hvertex,
      hupdate]
    rfl
  unfold Follows
  rw [hstep]
  refine ⟨_, _, rfl, h.move (.enter hw) (fun _ h => h) (filter_erase hs.fresh_nodup h.fresh_eq w),
    ?_⟩
  have hfresh := List.perm_cons_erase hw
  have hlength := hfresh.length_eq
  have hsuccessors := (hfresh.flatMap_right g.successors).length_eq
  simp only [ahead, load, List.flatMap_cons, List.length_append, List.length_cons]
    at hlength hsuccessors ⊢
  omega

/-- A finished successor is passed over. -/
theorem Kept.follows_pass (h : Kept g ⟨fresh, ⟨v, w :: ws⟩ :: below, finished⟩ starts)
    (hw : w ∉ fresh) (hfinished : w ∈ finished) :
    Follows g ⟨fresh, ⟨v, w :: ws⟩ :: below, finished⟩ starts := by
  have hstep : Traversal.step g (books ⟨fresh, ⟨v, w :: ws⟩ :: below, finished⟩ starts) =
      .next (books ⟨fresh, ⟨v, ws⟩ :: below, finished⟩ starts) := by
    have hcolour : colour ⟨fresh, ⟨v, w :: ws⟩ :: below, finished⟩ w = some .done :=
      h.reached.sound.colour_of_mem_finished hfinished
    simp only [Traversal.step, books, List.map_cons, hcolour]
    rfl
  unfold Follows
  rw [hstep]
  refine ⟨_, _, rfl, h.move (.pass hw hfinished) (fun _ h => h) h.fresh_eq, ?_⟩
  simp only [ahead, load, List.flatMap_cons, List.length_append, List.length_cons]
  omega

/-- Any other successor has its place on the path, and closes a cycle. -/
theorem Kept.follows_close (h : Kept g ⟨fresh, ⟨v, w :: ws⟩ :: below, finished⟩ starts)
    (hw : w ∉ fresh) (hfinished : w ∉ finished) :
    Follows g ⟨fresh, ⟨v, w :: ws⟩ :: below, finished⟩ starts := by
  have hs := h.reached.sound
  have hpath := hs.mem_path (g.target_mem _ hs.settled.edge) hw hfinished
  have hstep : Traversal.step g (books ⟨fresh, ⟨v, w :: ws⟩ :: below, finished⟩ starts) =
      .closed (CycleSearch.closing w (path ⟨fresh, ⟨v, w :: ws⟩ :: below, finished⟩)) := by
    have hcolour : colour ⟨fresh, ⟨v, w :: ws⟩ :: below, finished⟩ w = some .onPath :=
      hs.colour_eq_onPath_iff.2 hpath
    simp only [Traversal.step, books, List.map_cons, hcolour]
    exact Traversal.close_eq hs.path_nodup hpath
  unfold Follows
  rw [hstep]
  simp only [step, if_neg hw, if_neg hfinished]
  rfl

/-- **A step on the books follows the walk.** -/
theorem Kept.follows {s : Ordering α} (h : Kept g s starts) : Follows g s starts := by
  obtain ⟨fresh, frames, finished⟩ := s
  match frames, starts, h with
  | [], [], h =>
    -- no vertex is left
    obtain rfl : fresh = [] := h.fresh_eq.symm
    rfl
  | [], v :: starts, h =>
    by_cases hv : v ∈ fresh
    · exact h.follows_start hv
    · exact h.follows_skip hv
  | ⟨v, []⟩ :: below, starts, h => exact h.follows_finish
  | ⟨v, w :: ws⟩ :: below, starts, h =>
    by_cases hw : w ∈ fresh
    · exact h.follows_enter hw
    · by_cases hfinished : w ∈ finished
      · exact h.follows_pass hw hfinished
      · exact h.follows_close hw hfinished

end

/-! ## §4. The whole walk. -/

/-- What is drawn from a vertex of the path is finished, or is the vertex that the path goes on
to. -/
theorem Settled.exists_drawn {g : Digraph α} {finished : List α} {frames : List (Frame α)}
    {above : Option α} (h : Settled g finished above frames) {i : Nat} {f : Frame α}
    (hf : frames[i]? = some f) :
    ∃ drawn, g.successors f.vertex = drawn ++ f.pending ∧ ∀ w ∈ drawn, w ∈ finished ∨
      (i = 0 ∧ above = some w) ∨ ∃ j, j + 1 = i ∧ (frames.map Frame.vertex)[j]? = some w := by
  induction frames generalizing above i with
  | nil => exact absurd hf (by simp)
  | cons top below ih =>
    obtain ⟨⟨drawn, hsucc, hdrawn⟩, hbelow⟩ := h
    match i with
    | 0 =>
      injection hf with hf
      refine ⟨drawn, hf ▸ hsucc, ?_⟩
      intro w hw
      exact (hdrawn w hw).imp_right fun habove => .inl ⟨rfl, habove⟩
    | i + 1 =>
      -- the vertex above the rest of the path is `top`
      obtain ⟨drawn, hsucc, hdrawn⟩ := ih hbelow hf
      refine ⟨drawn, hsucc, ?_⟩
      intro w hw
      rcases hdrawn w hw with hfinished | ⟨rfl, htop⟩ | ⟨j, rfl, hj⟩
      · exact .inl hfinished
      · exact .inr (.inr ⟨0, rfl, htop⟩)
      · exact .inr (.inr ⟨j + 1, rfl, hj⟩)

/-- The books that a sound state of the walk keeps are consistent. -/
theorem Sound.consistent {g : Digraph α} {s : Ordering α} (hs : Sound g s) (starts : List α) :
    Traversal.Consistent g (s.books starts) where
  length_eq := by simp [books, path]
  nodup := hs.path_nodup
  mem_path_iff := fun _ => hs.colour_eq_onPath_iff.symm
  linked := hs.linked
  drawn := by
    intro i v rest hv hrest
    obtain ⟨f, hf, rfl⟩ : ∃ f, s.frames[i]? = some f ∧ f.vertex = v := by
      simpa [books, path] using hv
    have hpending : f.pending = rest := by
      simpa [books, hf] using hrest
    obtain ⟨drawn, hsucc, hdrawn⟩ := hs.settled.exists_drawn hf
    refine ⟨drawn, by rw [hsucc, hpending], ?_⟩
    intro w hw
    rcases hdrawn w hw with hfinished | ⟨-, hnone⟩ | hnext
    · exact .inl (hs.colour_of_mem_finished hfinished)
    · exact absurd hnone (by simp)
    · exact .inr hnext

end Ordering

/-- Grouped by the vertex that they start at, the edges are the same. -/
theorem edgesBySource_perm (g : Digraph α) : g.edgesBySource.Perm g.edges := by
  have hgroup : ∀ u, (g.successors u).map (fun v => (u, v)) = g.edges.filter (·.1 = u) := by
    intro u
    unfold successors
    rw [List.map_map]
    calc (g.edges.filter (·.1 = u)).map ((fun v => (u, v)) ∘ Prod.snd)
        = (g.edges.filter (·.1 = u)).map id := by
          apply List.map_congr_left
          intro e he
          have hu : e.1 = u := by simpa using (List.mem_filter.1 he).2
          simp [← hu]
      _ = g.edges.filter (·.1 = u) := List.map_id _
  have hnodup : g.edgesBySource.Nodup := by
    unfold edgesBySource
    simp only [hgroup, List.nodup_flatMap]
    refine ⟨fun u _ => g.edges_nodup.filter _, g.vertices_nodup.imp ?_⟩
    intro u v huv e hu hv
    have heu : e.1 = u := by simpa using (List.mem_filter.1 hu).2
    have hev : e.1 = v := by simpa using (List.mem_filter.1 hv).2
    exact huv (heu.symm.trans hev)
  rw [List.perm_ext_iff_of_nodup hnodup g.edges_nodup]
  rintro ⟨u, v⟩
  simp only [edgesBySource, List.mem_flatMap, List.mem_map, mem_successors, Prod.mk.injEq]
  constructor
  · rintro ⟨u', -, v', he, rfl, rfl⟩
    exact he
  · intro he
    exact ⟨u, g.source_mem _ he, v, he, rfl, rfl⟩

namespace Ordering

/-- At first there are two steps ahead for each vertex and one for each edge. -/
theorem ahead_start (g : Digraph α) :
    ahead g (start g) g.vertices = 2 * g.vertices.length + g.edges.length := by
  have hedges : (g.vertices.flatMap g.successors).length = g.edges.length := by
    have htargets : g.edgesBySource.map Prod.snd = g.vertices.flatMap g.successors := by
      simp [edgesBySource, List.map_flatMap, Function.comp_def]
    rw [← htargets, List.length_map, (edgesBySource_perm g).length_eq]
  simp only [ahead, load, start, hedges, List.flatMap_nil, List.length_nil]
  omega

/-- The walk and the traversal begin with the same books. -/
theorem books_start (g : Digraph α) : books (start g) g.vertices = Traversal.start g := by
  have hcolour : colour (start g) = (Traversal.start g).colour := by
    funext v
    simp [colour, start, path, Traversal.start]
  unfold books
  rw [hcolour]
  rfl

/-- The books are those of a state of the walk at any time. -/
theorem exists_books {g : Digraph α} {n : Nat} {t : Traversal α}
    (h : After (Traversal.Next g) (Traversal.start g) n t) :
    ∃ s starts, t = books s starts ∧ Kept g s starts ∧
      n + ahead g s starts = 2 * g.vertices.length + g.edges.length := by
  induction h with
  | start =>
    have hkept : Kept g (start g) g.vertices :=
      ⟨.refl, fun _ hv => hv, List.filter_eq_self.2 fun _ hv => decide_eq_true hv⟩
    exact ⟨start g, g.vertices, (books_start g).symm, hkept, by rw [Nat.zero_add, ahead_start]⟩
  | next _ hnext ih =>
    obtain ⟨s, starts, rfl, hkept, hcount⟩ := ih
    have hfollows := hkept.follows
    unfold Follows at hfollows
    rw [hnext] at hfollows
    obtain ⟨s', starts', rfl, hkept', hahead⟩ := hfollows
    exact ⟨s', starts', rfl, hkept', by omega⟩

end Ordering

/-- **With the books kept apart, the walk takes at most two steps for each vertex and one for each
edge.  At any time the books agree, and what a step looks up is there.  So the walk comes to an
end: it has the build order then, or the first cycle.** -/
theorem traversal_keeps_books (g : Digraph α) :
    (∀ n t, After (Traversal.Next g) (Traversal.start g) n t →
      n ≤ 2 * g.vertices.length + g.edges.length ∧ Traversal.Consistent g t ∧
        Traversal.step g t ≠ .stuck) ∧
      ∃ n t, After (Traversal.Next g) (Traversal.start g) n t ∧
        ((∃ order, Traversal.step g t = .exhausted order ∧ g.buildOrder = .ok order ∧
            g.findCycle = none) ∨
          ∃ cycle, Traversal.step g t = .closed cycle ∧ g.buildOrder = .error cycle ∧
            g.findCycle = some cycle) := by
  have hbounded : ∀ n t, After (Traversal.Next g) (Traversal.start g) n t →
      n ≤ 2 * g.vertices.length + g.edges.length := by
    intro n t h
    obtain ⟨s, starts, -, -, hcount⟩ := Ordering.exists_books h
    omega
  constructor
  · intro n t h
    obtain ⟨s, starts, rfl, hkept, hcount⟩ := Ordering.exists_books h
    refine ⟨hbounded n _ h, hkept.reached.sound.consistent starts, ?_⟩
    intro hstuck
    have hfollows := hkept.follows
    unfold Ordering.Follows at hfollows
    rw [hstuck] at hfollows
    exact hfollows
  · obtain ⟨n, t, h, hlast⟩ := After.exists_last hbounded
    refine ⟨n, t, h, ?_⟩
    obtain ⟨s, starts, rfl, hkept, -⟩ := Ordering.exists_books h
    have hrun := hkept.reached.run_eq_buildOrder
    rw [Ordering.run_eq] at hrun
    have hfollows := hkept.follows
    unfold Ordering.Follows at hfollows
    cases hstep : Traversal.step g (s.books starts) with
    | next t' => exact absurd hstep (hlast t')
    | closed cycle =>
      rw [hstep] at hfollows
      rw [hfollows] at hrun
      exact .inr ⟨cycle, rfl, hrun.symm, findCycle_eq_some_iff.2 hrun.symm⟩
    | exhausted order =>
      rw [hstep] at hfollows
      rw [hfollows] at hrun
      exact .inl ⟨order, rfl, hrun.symm, findCycle_eq_none_iff_exists.2 ⟨order, hrun.symm⟩⟩
    | stuck =>
      rw [hstep] at hfollows
      exact hfollows.elim

/-- The walk is on its way from 0 over 1 to 2 and has passed over 9, which it has left before; the
edge from 2 to 3 is not drawn. -/
theorem traversal_keeps_books_lasso :
    ∃ t, After (Traversal.Next lasso) (Traversal.start lasso) 6 t ∧
      t.path = [2, 1, 0] ∧ t.pending = [[3], [], []] ∧ t.finished = [9] ∧
        (6 ≤ 2 * lasso.vertices.length + lasso.edges.length ∧ Traversal.Consistent lasso t ∧
          Traversal.step lasso t ≠ .stuck) := by
  have hgo : ∀ {n t t'}, After (Traversal.Next lasso) (Traversal.start lasso) n t →
      Traversal.step lasso t = .next t' →
        After (Traversal.Next lasso) (Traversal.start lasso) (n + 1) t' := After.next
  have h := hgo (hgo (hgo (hgo (hgo (hgo .start rfl) rfl) rfl) rfl) rfl) rfl
  exact ⟨_, h, rfl, rfl, rfl, (traversal_keeps_books lasso).1 6 _ h⟩

end BuildPlan.Digraph
