/-
  BuildPlan.Proofs.Workspace.Addresses
  ────────────────────────────────────
  **LOOKING FOR A PROJECT BY THE PATH IT IS SHOWN WITH.**

  Each project of a workspace is shown with the way from the root to its directory, and no
  two ways are the same.  A directory is looked up by the key of its path, though, and its
  name may hold what keys leave out:

      lib/json   lib\json       one key, so each path finds both projects
      ./␣web␣    ␣web␣/         neither has the key of `␣web␣`, so neither finds the project

  So a path finds its project, and no other one if no other path has the key.  Where no path
  holds a backslash or is padded, this is the case for all of them, and neither a `./` in
  front of a path nor a slash behind it matters (`located_paths_of_loaded`).
-/
import BuildPlan.Proofs.Reactor.PathKey
import BuildPlan.Proofs.Workspace.Directories

namespace BuildPlan.Workspace.Path

/-! ## §1. Ways as texts. -/

theorem toList_joined_cons (mark : String) (marks : List String) :
    (Text.joined "/" (mark :: marks)).toList =
      mark.toList ++ marks.flatMap fun m => '/' :: m.toList := by
  induction marks generalizing mark with
  | nil => simp [Text.joined]
  | cons m marks ih => simp [Text.joined, ih]

/-- A way that ends in a mark does not end in a slash. -/
theorem IsMark.getLast?_append_ne {m : String} (h : IsMark m) (front : List Char) :
    (front ++ m.toList).getLast? ≠ some '/' := by
  rw [List.getLast?_append_of_ne_nil front (mt String.toList_eq_nil_iff.1 h.ne_empty)]
  intro hlast
  exact h.no_slash (List.mem_of_getLast? hlast)

/-- Marks that are joined by slashes begin and end the text. -/
theorem isRelative_joined {mark : String} {marks : List String}
    (h : ∀ m ∈ mark :: marks, IsMark m) : Reactor.IsRelative (Text.joined "/" (mark :: marks)) := by
  obtain ⟨hmark, hmarks⟩ := List.forall_mem_cons.1 h
  obtain ⟨c, cs, hcs⟩ := List.exists_cons_of_ne_nil (mt String.toList_eq_nil_iff.1 hmark.ne_empty)
  have hslash : '/' ∉ c :: cs := hcs ▸ hmark.no_slash
  have hlist := toList_joined_cons mark marks
  constructor
  · simp [hlist, hcs]
  · rw [hlist, hcs]
    intro hhead
    injection hhead with hc
    exact hslash (hc ▸ List.mem_cons_self)
  · rw [hlist, hcs]
    intro hhere
    obtain ⟨hc, hrest⟩ := List.cons_prefix_cons.1 hhere
    cases cs with
    | nil =>
      -- the first mark would be a dot
      exact hmark.ne_dot (String.toList_inj.1 (by rw [hcs, ← hc]; rfl))
    | cons d cs =>
      obtain ⟨hd, -⟩ := List.cons_prefix_cons.1 hrest
      exact hslash (hd ▸ List.mem_cons_of_mem c List.mem_cons_self)
  · rcases List.eq_nil_or_concat' marks with rfl | ⟨front, last, rfl⟩
    · exact hmark.getLast?_append_ne []
    · have hlast := (hmarks last (by simp)).getLast?_append_ne
        (mark.toList ++ front.flatMap (fun m => '/' :: m.toList) ++ ['/'])
      simpa [hlist] using hlast

/-- The way from one directory to another is written as a relative path. -/
theorem isRelative_relativeTo {p : Path} (hp : p.Proper) (base : Path) :
    Reactor.IsRelative (p.relativeTo base) := by
  obtain ⟨way, hway, hmarks, -⟩ := exists_way hp base
  rw [hway]
  cases way with
  | nil => constructor <;> decide
  | cons mark marks =>
    rw [if_neg (List.cons_ne_nil mark marks)]
    exact isRelative_joined hmarks

end BuildPlan.Workspace.Path

namespace BuildPlan.Workspace

open Reactor (pathKey IsRelative Smooth BeginsPlainly EndsPlainly)

variable {t : FileTree} {root : Path} {reactor : Reactor} {defaults : Request}
  {p q : Project}

/-! ## §2. The paths of a loaded workspace. -/

/-- The projects are shown with different ways. -/
structure Addressed (reactor : Reactor) : Prop where
  isRelative : ∀ p ∈ reactor.projects, ∃ path, p.path = some path ∧ IsRelative path
  nodup : (reactor.projects.map Project.path).Nodup

/-- Smooth paths with one key are the same, and so are the projects. -/
theorem Addressed.eq_of_smooth (h : Addressed reactor) {path other : String}
    (hp : p ∈ reactor.projects) (hpath : p.path = some path) (hsmooth : Smooth path)
    (hq : q ∈ reactor.located path) (hother : q.path = some other) (hsmooth' : Smooth other) :
    q = p := by
  obtain ⟨hq, hkey⟩ := Reactor.mem_located_iff.1 hq
  obtain ⟨_, hpath', hrelative⟩ := h.isRelative p hp
  obtain ⟨_, hother', hrelative'⟩ := h.isRelative q hq
  obtain rfl := Option.some.inj (hpath.symm.trans hpath')
  obtain rfl := Option.some.inj (hother.symm.trans hother')
  rw [hother, Option.map_some, Reactor.pathKey_of_smooth hsmooth hrelative,
    Reactor.pathKey_of_smooth hsmooth' hrelative'] at hkey
  exact List.inj_on_of_nodup_map h.nodup hq hp (hother.trans (hkey.trans hpath.symm))

/-- Where all paths are smooth, each finds one project, in all spellings. -/
theorem Addressed.located_eq_singleton (h : Addressed reactor)
    (hall : ∀ q ∈ reactor.projects, ∀ other ∈ q.path, Smooth other) {path : String}
    (hp : p ∈ reactor.projects) (hpath : p.path = some path) (hrelative : IsRelative path) :
    reactor.located path = [p] ∧ reactor.located ("./" ++ path) = [p] ∧
      reactor.located (path ++ "/") = [p] := by
  have hsmooth : Smooth path := hall p hp path hpath
  have hone : reactor.located path = [p] := by
    rw [Reactor.located_eq_singleton_iff hp hpath]
    intro q hq hkey
    obtain ⟨other, hother, -⟩ := Option.map_eq_some_iff.1 hkey
    exact h.eq_of_smooth hp hpath hsmooth (Reactor.mem_located_iff.2 ⟨hq, hkey⟩) hother
      (hall q hq other hother)
  refine ⟨hone, ?_, ?_⟩
  · rw [Reactor.located_congr _ (Reactor.pathKey_here_append hsmooth.beginsPlainly hrelative), hone]
  · rw [Reactor.located_congr _ (Reactor.pathKey_append_slash hsmooth.endsPlainly hrelative.ne_nil),
      hone]

section Laws

variable [Settings.Format]

/-! ## §3. The law of the paths. -/

/-- The projects of a loaded workspace have relative paths, each its own. -/
theorem addressed_of_load (hroot : root.Proper) (h : load t root = .ok (reactor, defaults)) :
    Addressed reactor := by
  obtain ⟨visited, -, hunfolds, hsurvey⟩ := exists_survey h
  have hproper := hunfolds.proper hroot
  refine ⟨?_, hsurvey.nodup_paths hproper⟩
  intro p hp
  rw [hsurvey.projects_eq] at hp
  obtain ⟨v, hv, rfl⟩ := List.mem_map.1 hp
  exact ⟨_, path_project root visited v, Path.isRelative_relativeTo (hproper v hv) root⟩

/-- **Each project of a loaded workspace is found by its path, and alone if no other path has the
same key.  If another is found with it, one of the two paths holds a backslash or is padded.  A `./`
in front of a path that begins plainly changes nothing, nor does a slash behind one that ends
plainly.  So where no path holds a backslash or is padded, each finds its project alone in the three
spellings.** -/
theorem located_paths_of_loaded (hroot : root.Proper)
    (h : load t root = .ok (reactor, defaults)) :
    ∀ p ∈ reactor.projects, ∃ path, p.path = some path ∧ p ∈ reactor.located path ∧
      (reactor.located path = [p] ↔
        ∀ q ∈ reactor.projects, q.path.map pathKey = some (pathKey path) → q = p) ∧
      (∀ q ∈ reactor.located path, q = p ∨ ¬ Smooth path ∨ ∃ other ∈ q.path, ¬ Smooth other) ∧
      (BeginsPlainly path → reactor.located ("./" ++ path) = reactor.located path) ∧
      (EndsPlainly path → reactor.located (path ++ "/") = reactor.located path) ∧
      ((∀ q ∈ reactor.projects, ∀ other ∈ q.path, Smooth other) →
        reactor.located path = [p] ∧ reactor.located ("./" ++ path) = [p] ∧
          reactor.located (path ++ "/") = [p]) := by
  have haddressed := addressed_of_load hroot h
  intro p hp
  obtain ⟨path, hpath, hrelative⟩ := haddressed.isRelative p hp
  refine ⟨path, hpath, Reactor.mem_located_self hp hpath, Reactor.located_eq_singleton_iff hp hpath,
    ?_, ?_, ?_, ?_⟩
  · intro q hq
    by_cases hsmooth : Smooth path
    · obtain ⟨hmem, hkey⟩ := Reactor.mem_located_iff.1 hq
      obtain ⟨other, hother, -⟩ := Option.map_eq_some_iff.1 hkey
      by_cases hsmooth' : Smooth other
      · exact .inl (haddressed.eq_of_smooth hp hpath hsmooth hq hother hsmooth')
      · exact .inr (.inr ⟨other, hother, hsmooth'⟩)
    · exact .inr (.inl hsmooth)
  · intro hbegins
    exact Reactor.located_congr _ (Reactor.pathKey_here_append hbegins hrelative)
  · intro hends
    exact Reactor.located_congr _ (Reactor.pathKey_append_slash hends hrelative.ne_nil)
  · intro hall
    exact haddressed.located_eq_singleton hall hp hpath hrelative

end Laws

/-- A store with a module two directories down and one next to it. -/
def storeFiles : FileTree where
  files :=
    [(⟨["store", "reactor.toml"]⟩,
        "[project]\nname='store'\nnamespace='org'\nmodules=['lib/json', '../tax']".toUTF8),
      (⟨["store", "lib", "json", "reactor.toml"]⟩,
        "[project]\nname='reader'\nparent='org:store'".toUTF8),
      (⟨["tax", "reactor.toml"]⟩, "[project]\nname='tax'\nparent='org:store'".toUTF8)]

/-- The store and its modules. -/
def storeReactor : Reactor where
  projects :=
    [.declare ⟨"org", "store"⟩ none [⟨"org", "reader"⟩, ⟨"org", "tax"⟩] [] none (some "."),
      .declare ⟨"org", "reader"⟩ (some ⟨"org", "store"⟩) [] [] none (some "lib/json"),
      .declare ⟨"org", "tax"⟩ (some ⟨"org", "store"⟩) [] [] none (some "../tax")]
  coordinates_nodup := by decide

/-- The law at a store whose paths are all smooth. -/
theorem located_paths_of_loaded_store :
    Path.Proper ⟨["store"]⟩ ∧ load storeFiles ⟨["store"]⟩ = .ok (storeReactor, {}) ∧
      (∀ q ∈ storeReactor.projects, ∀ other ∈ q.path, Smooth other) ∧
      ∀ p ∈ storeReactor.projects, ∃ path, p.path = some path ∧
        storeReactor.located path = [p] ∧ storeReactor.located ("./" ++ path) = [p] ∧
          storeReactor.located (path ++ "/") = [p] := by
  have hroot : Path.Proper ⟨["store"]⟩ := by
    intro s hs
    rw [List.mem_singleton.1 hs]
    constructor <;> decide
  have hload : load storeFiles ⟨["store"]⟩ = .ok (storeReactor, {}) := by decide +kernel
  have hsmooth : ∀ q ∈ storeReactor.projects, ∀ other ∈ q.path, Smooth other := by
    have htest : ∀ q ∈ storeReactor.projects, q.path.all (fun other => Smooth other) = true := by
      decide
    intro q hq other hother
    exact of_decide_eq_true ((Option.all_eq_true _ _).1 (htest q hq) other hother)
  refine ⟨hroot, hload, hsmooth, ?_⟩
  intro p hp
  obtain ⟨path, hpath, -, -, -, -, -, hthree⟩ := located_paths_of_loaded hroot hload p hp
  exact ⟨path, hpath, hthree hsmooth⟩

/-- A store whose modules lie in directories that are spelled nearly alike, and one whose directory
is padded. -/
def spellingFiles : FileTree where
  files :=
    [(⟨["reactor.toml"]⟩,
        "[project]\nname='store'\nnamespace='org'\nmodules=['lib/json', 'lib\\json', ' web ']".toUTF8),
      (⟨["lib", "json", "reactor.toml"]⟩, "[project]\nname='reader'\nnamespace='org'".toUTF8),
      (⟨["lib\\json", "reactor.toml"]⟩, "[project]\nname='writer'\nnamespace='org'".toUTF8),
      (⟨[" web ", "reactor.toml"]⟩, "[project]\nname='site'\nnamespace='org'".toUTF8)]

/-- The projects in these directories. -/
def spellingReactor : Reactor where
  projects :=
    [.declare ⟨"org", "store"⟩ none [⟨"org", "reader"⟩, ⟨"org", "writer"⟩, ⟨"org", "site"⟩] [] none
        (some "."),
      .declare ⟨"org", "reader"⟩ none [] [] none (some "lib/json"),
      .declare ⟨"org", "writer"⟩ none [] [] none (some "lib\\json"),
      .declare ⟨"org", "site"⟩ none [] [] none (some " web ")]
  coordinates_nodup := by decide

/-- A path may find two projects, and with a `./` in front of it or a slash behind it none. -/
theorem spelling_leads_astray :
    load spellingFiles Path.top = .ok (spellingReactor, {}) ∧
      (∃ p ∈ spellingReactor.projects, ∃ q ∈ spellingReactor.projects,
        p ≠ q ∧ p.path = some "lib/json" ∧ spellingReactor.located "lib/json" = [p, q]) ∧
      ∃ p ∈ spellingReactor.projects, p.path = some " web " ∧
        spellingReactor.located ("./" ++ " web ") = [] ∧
          spellingReactor.located (" web " ++ "/") = [] :=
  ⟨by decide +kernel, by decide, by decide⟩

end BuildPlan.Workspace
