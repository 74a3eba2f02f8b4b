/-
  BuildPlan.Proofs.Workspace.Way
  ──────────────────────────────
  **THE WAY FROM ONE DIRECTORY TO ANOTHER.**

  A path of a file system is made of names: none is empty, a dot or two dots, and none
  holds a slash (`Proper`).  Whatever text is resolved against such a path leads to one
  (`Proper.resolve`).  The way from a directory to such a path, resolved against the
  directory, leads to the path again:

      base      /a/b/c
      p         /a/x
      way       ../../x        out of c and b, and on to x

  So no two paths have the same way from a directory (`relativeTo_inj`).
-/
import BuildPlan.Proofs.Text
import BuildPlan.Workspace.Path
import Mathlib.Data.List.Induction

namespace BuildPlan.Workspace.Path

/-! ## §1. Paths of names. -/

/-- A name that a file or a directory can have. -/
structure IsName (s : String) : Prop where
  ne_empty : s ≠ ""
  ne_dot : s ≠ "."
  ne_dots : s ≠ ".."
  no_slash : '/' ∉ s.toList

/-- A mark of a way: two dots, or a name. -/
structure IsMark (s : String) : Prop where
  ne_empty : s ≠ ""
  ne_dot : s ≠ "."
  no_slash : '/' ∉ s.toList

theorem IsName.isMark {s : String} (h : IsName s) : IsMark s := ⟨h.ne_empty, h.ne_dot, h.no_slash⟩

/-- Each name on the way from the top is one that a directory can have. -/
def Proper (p : Path) : Prop := ∀ s ∈ p.names, IsName s

theorem proper_top : top.Proper := by
  intro s hs
  exact absurd hs (by simp [top])

/-- The marks of a text hold no slash. -/
theorem not_mem_of_mem_marks {text mark : String} (h : mark ∈ marks text) :
    '/' ∉ mark.toList := by
  obtain ⟨f, hf, rfl⟩ := List.mem_map.1 h
  rw [String.toList_ofList]
  exact Text.not_mem_of_mem_fields hf

/-- A step from a path of names leads to one. -/
theorem Proper.step {p : Path} (hp : p.Proper) {mark : String} (h : '/' ∉ mark.toList) :
    (p.step mark).Proper := by
  unfold Path.step
  split
  · exact hp
  · rename_i hstay
    rw [not_or] at hstay
    split
    · intro s hs
      exact hp s (List.dropLast_subset _ hs)
    · rename_i hup
      intro s hs
      rcases List.mem_append.1 hs with hs | hs
      · exact hp s hs
      · rw [List.mem_singleton.1 hs]
        exact ⟨hstay.1, hstay.2, hup, h⟩

theorem Proper.foldl_step {p : Path} (hp : p.Proper) {path : List String}
    (h : ∀ mark ∈ path, '/' ∉ mark.toList) : (path.foldl Path.step p).Proper := by
  induction path generalizing p with
  | nil => exact hp
  | cons mark path ih =>
    obtain ⟨hmark, hpath⟩ := List.forall_mem_cons.1 h
    exact ih (hp.step hmark) hpath

/-- A text leads from a path of names to a path of names. -/
theorem Proper.resolve {base : Path} (hbase : base.Proper) (text : String) :
    (base.resolve text).Proper := by
  have hmarks : ∀ mark ∈ marks text, '/' ∉ mark.toList := fun _ => not_mem_of_mem_marks
  unfold Path.resolve
  split
  · exact proper_top.foldl_step hmarks
  · exact hbase.foldl_step hmarks

/-! ## §2. There and back. -/

/-- Texts without slashes that are joined by slashes come apart as they were. -/
theorem marks_joined {names : List String} (hne : names ≠ [])
    (h : ∀ s ∈ names, '/' ∉ s.toList) : marks (Text.joined "/" names) = names := by
  unfold marks
  induction names with
  | nil => exact absurd rfl hne
  | cons s names ih =>
    obtain ⟨hs, hnames⟩ := List.forall_mem_cons.1 h
    cases names with
    | nil =>
      rw [Text.joined, Text.fields_of_not_mem hs, List.map_singleton, String.ofList_toList]
    | cons s' names =>
      have hsplit : (Text.joined "/" (s :: s' :: names)).toList =
          s.toList ++ '/' :: (Text.joined "/" (s' :: names)).toList := by
        simp [Text.joined]
      rw [hsplit, Text.fields_append_cons hs, List.map_cons, ih (by simp) hnames,
        String.ofList_toList]

/-- Names with slashes between them make a relative path. -/
theorem isAbsolute_joined {s : String} {names : List String} (hne : s ≠ "")
    (hs : '/' ∉ s.toList) : isAbsolute (Text.joined "/" (s :: names)) = false := by
  obtain ⟨c, cs, hcs⟩ := List.exists_cons_of_ne_nil (mt String.toList_eq_nil_iff.1 hne)
  have hhead : (Text.joined "/" (s :: names)).toList.head? = some c := by
    cases names <;> simp [Text.joined, hcs]
  have hc : c ≠ '/' := by
    intro h
    exact hs (by simp [hcs, h])
  unfold isAbsolute
  rw [hhead]
  simpa using hc

/-- Steps that are all names go down by these names. -/
theorem foldl_step_names {p : Path} {names : List String} (h : ∀ s ∈ names, IsName s) :
    names.foldl step p = ⟨p.names ++ names⟩ := by
  induction names generalizing p with
  | nil => simp
  | cons s names ih =>
    obtain ⟨hs, hnames⟩ := List.forall_mem_cons.1 h
    have hstep : p.step s = p.child s := by
      unfold step
      rw [if_neg (not_or.2 ⟨hs.ne_empty, hs.ne_dot⟩), if_neg hs.ne_dots]
    rw [List.foldl_cons, hstep, ih hnames]
    simp [child]

/-- Two dots for each of the last names lead out of them. -/
theorem foldl_step_dots (common out : List String) :
    (out.map fun _ => "..").foldl step ⟨common ++ out⟩ = ⟨common⟩ := by
  induction out using List.reverseRecOn with
  | nil => simp
  | append_singleton out s ih =>
    have hcomm : (out ++ [s]).map (fun _ => "..") = ".." :: out.map fun _ => ".." := by
      rw [List.map_const', List.length_append, List.map_const']
      rfl
    -- the first step leads out of the last name
    have hstep : (⟨common ++ (out ++ [s])⟩ : Path).step ".." = ⟨common ++ out⟩ := by
      simp [step, parent, ← List.append_assoc]
    rw [hcomm, List.foldl_cons, hstep, ih]

/-- What is taken apart has a common beginning. -/
theorem exists_apart (as bs : List String) :
    ∃ common, as = common ++ (apart as bs).1 ∧ bs = common ++ (apart as bs).2 := by
  induction as, bs using apart.induct with
  | case1 as a bs ih =>
    obtain ⟨common, has, hbs⟩ := ih
    refine ⟨a :: common, ?_, ?_⟩
    · rw [apart, if_pos rfl, List.cons_append, ← has]
    · rw [apart, if_pos rfl, List.cons_append, ← hbs]
  | case2 a as b bs hab => exact ⟨[], by simp [apart, hab], by simp [apart, hab]⟩
  | case3 as bs h =>
    have happart : apart as bs = (as, bs) := by
      unfold apart
      split
      · exact absurd rfl (h _ _ _ _ rfl)
      · rfl
    exact ⟨[], by simp [happart], by simp [happart]⟩

/-- The way from a directory to a path of names is made of marks, and they lead there. -/
theorem exists_way {p : Path} (hp : p.Proper) (base : Path) :
    ∃ way, p.relativeTo base = (if way = [] then "." else Text.joined "/" way) ∧
      (∀ m ∈ way, IsMark m) ∧ way.foldl step base = p := by
  obtain ⟨common, hbase, hnames⟩ := exists_apart base.names p.names
  unfold relativeTo
  generalize apart base.names p.names = parts at hbase hnames
  obtain ⟨out, on⟩ := parts
  simp only at hbase hnames ⊢
  have hon : ∀ s ∈ on, IsName s := fun s hs => hp s (hnames ▸ List.mem_append_right common hs)
  refine ⟨out.map (fun _ => "..") ++ on, rfl, ?_, ?_⟩
  · intro m hm
    rcases List.mem_append.1 hm with hm | hm
    · obtain ⟨-, -, rfl⟩ := List.mem_map.1 hm
      constructor <;> decide
    · exact (hon m hm).isMark
  · -- back out of what is not common, and on from there
    obtain ⟨names⟩ := base
    obtain ⟨names'⟩ := p
    simp only at hbase hnames
    rw [List.foldl_append, hbase, foldl_step_dots, foldl_step_names hon, hnames]

/-- The way from a directory to a path of names leads there. -/
theorem resolve_relativeTo {p : Path} (hp : p.Proper) (base : Path) :
    base.resolve (p.relativeTo base) = p := by
  obtain ⟨way, hway, hmarks, hleads⟩ := exists_way hp base
  rw [hway]
  cases way with
  | nil => exact hleads
  | cons s way =>
    have hs := hmarks s List.mem_cons_self
    rw [if_neg (List.cons_ne_nil s way)]
    unfold resolve
    rw [isAbsolute_joined hs.ne_empty hs.no_slash,
      marks_joined (List.cons_ne_nil s way) fun m hm => (hmarks m hm).no_slash]
    exact hleads

/-- Paths of names with the same way from a directory are the same. -/
theorem relativeTo_inj {p q base : Path} (hp : p.Proper) (hq : q.Proper)
    (h : p.relativeTo base = q.relativeTo base) : p = q := by
  rw [← resolve_relativeTo hp base, h, resolve_relativeTo hq base]

end BuildPlan.Workspace.Path
