/-
  BuildPlan.Proofs.Workspace.Tour
  ───────────────────────────────
  **A TOUR OF THE DIRECTORIES OF A WORKSPACE.**

  Loading keeps a row of what is still to visit.  There is one kind of move (`Move`):

      visited                 pending
      v₁ … vₙ                 d  e₁ e₂ …          d is new, its descriptor says v
      v₁ … vₙ v               m₁ … mₖ  e₁ e₂ …    the modules of v come first

  A tour that can make no move has ended, and how is read off the first entry of the row
  (`Ends`).  Moves are determined by the state, so there is one end, and it is what
  exploring comes to (`Reached.explore_eq`).  Each move takes a descriptor that none
  before it took, so a tour makes at most as many moves as there are files
  (`Reached.length_le`).
-/
import BuildPlan.Proofs.Settings.Wording
import BuildPlan.Workspace.Load
import Mathlib.Data.List.Nodup
import Mathlib.Data.List.Perm.Subperm
import Mathlib.Logic.Relation

namespace BuildPlan.Workspace

/-! ## §1. Descriptors among the files. -/

/-- An entry leads to a directory if it has a text, and the text does not hold the character zero.
-/
theorem locate_eq_ok_iff {directory module : Path} {entry : Option String} :
    locate directory entry = .ok module ↔
      ∃ text, entry = some text ∧ Path.holdsNull text = false ∧
        directory.resolve text = module := by
  cases entry with
  | none => simp [locate]
  | some text => cases hnull : Path.holdsNull text <;> simp [locate, Path.resolve?, hnull]

/-- An entry leads nowhere for want of a text, or for the character zero in it. -/
theorem locate_eq_error_iff {directory : Path} {entry : Option String} {e : Trouble} :
    locate directory entry = .error e ↔
      (entry = none ∧ e = .unwritable) ∨
        ∃ text, entry = some text ∧ Path.holdsNull text = true ∧ e = .nullInPath := by
  cases entry with
  | none => simp [locate, @eq_comm _ e]
  | some text =>
    cases hnull : Path.holdsNull text <;> simp [locate, Path.resolve?, hnull, @eq_comm _ e]

theorem Path.child_inj {p q : Path} {name : String} (h : p.child name = q.child name) : p = q := by
  obtain ⟨ps⟩ := p
  obtain ⟨qs⟩ := q
  have hnames : ps ++ [name] = qs ++ [name] := congrArg Path.names h
  rw [List.append_cancel_right hnames]

/-- The descriptor of a directory is the first file that describes it. -/
theorem file?_eq_map_find? (t : FileTree) (directory : Path) :
    t.file? (directory.child descriptorName) =
      (t.files.find? (describes directory)).map Prod.snd := by
  unfold FileTree.file?
  induction t.files with
  | nil => rfl
  | cons f files ih =>
    obtain ⟨p, bytes⟩ := f
    by_cases hp : p = directory.child descriptorName
    · simp [describes, hp]
    · have hp' : (directory.child descriptorName == p) = false := by
        rw [beq_eq_false_iff_ne]
        exact fun h => hp h.symm
      rw [List.lookup_cons, hp', List.find?_cons_of_neg (by simpa [describes] using hp), ← ih]

/-- Using up the descriptor of one directory leaves those of the others. -/
theorem find?_eraseP_describes {d d' : Path} (h : d' ≠ d) (files : List (Path × ByteArray)) :
    (files.eraseP (describes d)).find? (describes d') = files.find? (describes d') := by
  induction files with
  | nil => rfl
  | cons f files ih =>
    by_cases hd : describes d f = true
    · have hd' : ¬ describes d' f = true := by
        intro hd'
        exact h (Path.child_inj ((of_decide_eq_true hd').symm.trans (of_decide_eq_true hd)))
      rw [List.eraseP_cons_of_pos hd, List.find?_cons_of_neg hd']
    · rw [List.eraseP_cons_of_neg hd, List.find?_cons, List.find?_cons, ih]

/-- No descriptor is used up but those of the directories that were visited. -/
def FileTree.Unread (t : FileTree) (visited : List Visit) (unread : List (Path × ByteArray)) :
    Prop :=
  ∀ d, d ∉ visited.map Visit.directory →
    unread.find? (describes d) = t.files.find? (describes d)

/-- The descriptor of a directory that was not visited is still unread. -/
theorem FileTree.Unread.file?_eq {t : FileTree} {visited : List Visit}
    {unread : List (Path × ByteArray)} (h : t.Unread visited unread) {d : Path}
    (hd : d ∉ visited.map Visit.directory) :
    t.file? (d.child descriptorName) = (unread.find? (describes d)).map Prod.snd := by
  rw [file?_eq_map_find?, h d hd]

/-- A visit uses up the descriptor of its directory and no other. -/
theorem FileTree.Unread.visit {t : FileTree} {visited : List Visit}
    {unread : List (Path × ByteArray)} (h : t.Unread visited unread) (v : Visit) :
    t.Unread (visited ++ [v]) (unread.eraseP (describes v.directory)) := by
  intro d hd
  rw [List.map_append, List.mem_append, not_or] at hd
  have hne : d ≠ v.directory := fun hne => hd.2 (by simp [hne])
  rw [find?_eraseP_describes hne, h d hd.1]

variable [Settings.Format]

/-! ## §2. What the descriptors say. -/

/-- There is a descriptor in the directory of the visit, and the visit is what it says. -/
def FileTree.Records (t : FileTree) (v : Visit) : Prop :=
  ∃ bytes, t.file? (v.directory.child descriptorName) = some bytes ∧
    visit v.directory bytes = .ok v

/-- The directories of the modules, in order of declaration. -/
def Visit.children (v : Visit) : List Path := v.modules.filterMap Except.toOption

/-- The descriptor in the one directory names the other as that of a module. -/
def FileTree.HasModule (t : FileTree) (d d' : Path) : Prop :=
  ∃ v, t.Records v ∧ v.directory = d ∧ d' ∈ v.children

/-- The directory is the other one, or that of a module of it, of a module of that, and so on. -/
def FileTree.Under (t : FileTree) : Path → Path → Prop := Relation.ReflTransGen t.HasModule

/-- A directory has one descriptor, and that says one thing. -/
theorem FileTree.Records.unique {t : FileTree} {v w : Visit} (hv : t.Records v) (hw : t.Records w)
    (h : v.directory = w.directory) : v = w := by
  obtain ⟨bytes, hbytes, hvisit⟩ := hv
  obtain ⟨bytes', hbytes', hvisit'⟩ := hw
  rw [h, hbytes'] at hbytes
  injection hbytes with hbytes
  rw [h, ← hbytes, hvisit'] at hvisit
  injection hvisit with hvisit
  exact hvisit.symm

/-- A visit is what the project table in the descriptor of its directory describes. -/
theorem visit_eq_ok_iff {directory : Path} {bytes : ByteArray} {v : Visit} :
    visit directory bytes = .ok v ↔
      v.directory = directory ∧ ∃ entries project,
        readEntries (directory.child descriptorName).text bytes = .ok entries ∧
          Settings.projectTable (directory.child descriptorName).text entries = .ok project ∧
            Settings.describe (directory.child descriptorName).text project =
              .ok v.description := by
  simp only [visit, bind_eq_ok, mapError_eq_ok]
  constructor
  · rintro ⟨entries, hentries, project, hproject, description, hdescribe, h⟩
    injection h with h
    subst h
    exact ⟨rfl, entries, project, hentries, hproject, hdescribe⟩
  · rintro ⟨rfl, entries, project, hentries, hproject, hdescribe⟩
    exact ⟨entries, hentries, project, hproject, v.description, hdescribe, rfl⟩

theorem directory_of_visit {directory : Path} {bytes : ByteArray} {v : Visit}
    (h : visit directory bytes = .ok v) : v.directory = directory :=
  (visit_eq_ok_iff.1 h).1

/-- A directory with a descriptor has it among the files. -/
theorem FileTree.Records.mem_files {t : FileTree} {v : Visit} (hv : t.Records v) :
    v.directory.child descriptorName ∈ t.files.map Prod.fst := by
  obtain ⟨bytes, hbytes, -⟩ := hv
  rw [file?_eq_map_find?, Option.map_eq_some_iff] at hbytes
  obtain ⟨f, hf, -⟩ := hbytes
  have hdescribes : describes v.directory f = true := List.find?_some hf
  exact List.mem_map.2 ⟨f, List.mem_of_find?_eq_some hf, of_decide_eq_true hdescribes⟩

/-! ## §3. Moves. -/

/-- How far a tour has come. -/
structure Tour where
  /-- The visits made, the latest last. -/
  visited : List Visit
  /-- What is still to visit, the next first; a trouble where there is no place to go to. -/
  pending : List (Except Trouble Path)

namespace Tour

/-- The tour before its first move. -/
def start (root : Path) : Tour := ⟨[], [.ok root]⟩

/-- One move of a tour: the next directory is new and is visited, and its modules are next. -/
inductive Move (t : FileTree) : Tour → Tour → Prop
  | visit {v : Visit} {visited : List Visit} {pending : List (Except Trouble Path)}
      (hnew : v.directory ∉ visited.map Visit.directory) (hv : t.Records v) :
      Move t ⟨visited, .ok v.directory :: pending⟩ ⟨visited ++ [v], v.pending ++ pending⟩

/-- What a tour comes to that can make no move. -/
inductive Ends (t : FileTree) : Tour → Except Trouble (List Visit) → Prop
  /-- Nothing is left to visit. -/
  | complete {visited : List Visit} : Ends t ⟨visited, []⟩ (.ok visited)
  /-- There is no place to go to. -/
  | nowhere {visited : List Visit} {e : Trouble} {pending : List (Except Trouble Path)} :
      Ends t ⟨visited, .error e :: pending⟩ (.error e)
  /-- The next directory was visited before. -/
  | again {visited : List Visit} {d : Path} {pending : List (Except Trouble Path)}
      (hd : d ∈ visited.map Visit.directory) :
      Ends t ⟨visited, .ok d :: pending⟩ (.error (.defect (.listedTwice d.text)))
  /-- The next directory has no descriptor. -/
  | missing {visited : List Visit} {d : Path} {pending : List (Except Trouble Path)}
      (hnew : d ∉ visited.map Visit.directory)
      (hfile : t.file? (d.child descriptorName) = none) :
      Ends t ⟨visited, .ok d :: pending⟩
        (.error (.defect (.missing (d.child descriptorName).text)))
  /-- The descriptor of the next directory cannot be used. -/
  | unusable {visited : List Visit} {d : Path} {pending : List (Except Trouble Path)}
      {bytes : ByteArray} {e : Trouble} (hnew : d ∉ visited.map Visit.directory)
      (hfile : t.file? (d.child descriptorName) = some bytes)
      (hvisit : visit d bytes = .error e) :
      Ends t ⟨visited, .ok d :: pending⟩ (.error e)

variable {t : FileTree} {s s' : Tour} {root : Path} {result : Except Trouble (List Visit)}

/-- A tour that has ended can make no move. -/
theorem Ends.not_move (h : Ends t s result) : ¬ Move t s s' := by
  intro hmove
  cases hmove with
  | visit hnew hv =>
    obtain ⟨bytes, hbytes, hvisit⟩ := hv
    cases h with
    | again hd => exact hnew hd
    | missing _ hfile =>
      rw [hbytes] at hfile
      exact absurd hfile (by simp)
    | unusable _ hfile hvisit' =>
      rw [hbytes] at hfile
      injection hfile with hfile
      rw [← hfile, hvisit] at hvisit'
      exact absurd hvisit' (by simp)

/-- A tour that has ended comes to one thing. -/
theorem Ends.unique {result' : Except Trouble (List Visit)} (h : Ends t s result)
    (h' : Ends t s result') : result = result' := by
  cases h with
  | complete => cases h'; rfl
  | nowhere => cases h'; rfl
  | again hd =>
    cases h' with
    | again => rfl
    | missing hnew => exact absurd hd hnew
    | unusable hnew => exact absurd hd hnew
  | missing hnew hfile =>
    cases h' with
    | again hd => exact absurd hd hnew
    | missing => rfl
    | unusable _ hfile' =>
      rw [hfile] at hfile'
      exact absurd hfile' (by simp)
  | unusable hnew hfile hvisit =>
    cases h' with
    | again hd => exact absurd hd hnew
    | missing _ hfile' =>
      rw [hfile] at hfile'
      exact absurd hfile' (by simp)
    | unusable _ hfile' hvisit' =>
      rw [hfile] at hfile'
      injection hfile' with hfile'
      rw [← hfile', hvisit] at hvisit'
      injection hvisit' with he
      rw [he]

/-- A tour has no choice of moves. -/
theorem Move.unique {s'' : Tour} (h : Move t s s') (h' : Move t s s'') : s' = s'' := by
  obtain ⟨hnew, hv⟩ := h
  generalize hs : (⟨_, _⟩ : Tour) = s at h'
  obtain ⟨-, hw⟩ := h'
  injection hs with hvisited hpending
  injection hpending with hdirectory hpending
  injection hdirectory with hdirectory
  rw [hvisited, hpending, hv.unique hw hdirectory]

/-! ## §4. Exploring is a tour. -/

/-- Exploring comes to the end of a tour, as long as no descriptor of a directory that is still to
visit was used up. -/
theorem exists_end {unread : List (Path × ByteArray)} {visited : List Visit}
    {pending : List (Except Trouble Path)} (hunread : t.Unread visited unread) :
    ∃ s, Relation.ReflTransGen (Move t) ⟨visited, pending⟩ s ∧
      Ends t s (explore unread visited pending) := by
  fun_induction explore unread visited pending with
  | case1 unread visited => exact ⟨_, .refl, .complete⟩
  | case2 unread visited e pending => exact ⟨_, .refl, .nowhere⟩
  | case3 unread visited d pending hd => exact ⟨_, .refl, .again hd⟩
  | case4 unread visited d pending hnew hfind =>
    refine ⟨_, .refl, .missing hnew ?_⟩
    rw [hunread.file?_eq hnew, hfind]
    rfl
  | case5 unread visited d pending hnew f hfind e hvisit =>
    refine ⟨_, .refl, .unusable hnew ?_ hvisit⟩
    rw [hunread.file?_eq hnew, hfind]
    rfl
  | case6 unread visited d pending hnew f hfind v hvisit ih =>
    obtain rfl := directory_of_visit hvisit
    have hrecords : t.Records v := by
      refine ⟨f.2, ?_, hvisit⟩
      rw [hunread.file?_eq hnew, hfind]
      rfl
    obtain ⟨s, hs, hend⟩ := ih (hunread.visit v)
    exact ⟨s, .head (.visit hnew hrecords) hs, hend⟩

/-! ## §5. The states that a tour comes through. -/

/-- A tour from the root comes to the state. -/
def Reached (t : FileTree) (root : Path) : Tour → Prop :=
  Relation.ReflTransGen (Move t) (start root)

/-- The tour from the root ends, and what it comes to is what exploring does. -/
theorem exists_reached_end (t : FileTree) (root : Path) :
    ∃ s, Reached t root s ∧ Ends t s (explore t.files [] [.ok root]) :=
  exists_end fun _ _ => rfl

/-- Every tour from the root ends as exploring does. -/
theorem Reached.explore_eq (h : Reached t root s) (hend : Ends t s result) :
    explore t.files [] [.ok root] = result := by
  obtain ⟨s', hs', hend'⟩ := exists_reached_end t root
  have hunique : Relator.RightUnique (Move t) := fun _ _ _ => Move.unique
  -- two tours from the root that have ended have come to the same state
  have hsame : s' = s := by
    rcases Relation.ReflTransGen.total_of_right_unique hunique h hs' with hgo | hgo
    · rcases hgo.cases_head with heq | ⟨next, hmove, -⟩
      · exact heq.symm
      · exact absurd hmove hend.not_move
    · rcases hgo.cases_head with heq | ⟨next, hmove, -⟩
      · exact heq
      · exact absurd hmove hend'.not_move
  subst hsame
  exact hend'.unique hend

/-- Each visit is what the descriptor of its directory says. -/
theorem Reached.records (h : Reached t root s) : ∀ v ∈ s.visited, t.Records v := by
  induction h with
  | refl => intro v hv; exact absurd hv (by simp [start])
  | tail _ hmove ih =>
    cases hmove with
    | visit _ hv =>
      intro w hw
      rcases List.mem_append.1 hw with hw | hw
      · exact ih w hw
      · exact List.mem_singleton.1 hw ▸ hv

/-- No directory is visited twice. -/
theorem Reached.nodup (h : Reached t root s) : (s.visited.map Visit.directory).Nodup := by
  induction h with
  | refl => exact List.nodup_nil
  | tail _ hmove ih =>
    cases hmove with
    | visit hnew _ =>
      rw [List.map_append, List.map_singleton]
      exact List.nodup_append_comm.2 (List.nodup_cons.2 ⟨hnew, ih⟩)

/-- There are no more visits than files, since each is to a descriptor of its own. -/
theorem Reached.length_le (h : Reached t root s) : s.visited.length ≤ t.files.length := by
  have hnodup : (s.visited.map fun v => v.directory.child descriptorName).Nodup := by
    have hmap := h.nodup.map (f := fun d : Path => d.child descriptorName) fun _ _ => Path.child_inj
    rwa [List.map_map] at hmap
  have hsub : (s.visited.map fun v => v.directory.child descriptorName) ⊆
      t.files.map Prod.fst := by
    intro name hname
    obtain ⟨v, hv, rfl⟩ := List.mem_map.1 hname
    exact (h.records v hv).mem_files
  have hlen := (List.subperm_of_subset hnodup hsub).length_le
  rwa [List.length_map, List.length_map] at hlen

theorem Move.length_eq (h : Move t s s') : s'.visited.length = s.visited.length + 1 := by
  obtain ⟨hnew, hv⟩ := h
  exact List.length_append

/-- A tour makes no more moves than there are files. -/
theorem exists_not_move {tour : Nat → Tour} (h : tour 0 = start root) :
    ∃ n ≤ t.files.length, ¬ Move t (tour n) (tour (n + 1)) := by
  by_contra hall
  have hmoves : ∀ n ≤ t.files.length, Move t (tour n) (tour (n + 1)) := by
    intro n hn
    by_contra hstop
    exact hall ⟨n, hn, hstop⟩
  -- after one move more than there are files, there would be one visit more
  have hvisits : ∀ n ≤ t.files.length + 1,
      Reached t root (tour n) ∧ (tour n).visited.length = n := by
    intro n
    induction n with
    | zero =>
      intro _
      rw [h]
      exact ⟨.refl, rfl⟩
    | succ n ih =>
      intro hn
      obtain ⟨hreached, hlen⟩ := ih (by omega)
      have hmove := hmoves n (by omega)
      exact ⟨hreached.tail hmove, by rw [hmove.length_eq, hlen]⟩
  obtain ⟨hreached, hlen⟩ := hvisits (t.files.length + 1) (Nat.le_refl _)
  have hle := hreached.length_le
  omega

end Tour

end BuildPlan.Workspace
