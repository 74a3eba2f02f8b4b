/-
  BuildPlan.Proofs.Reactor.PathKey
  ────────────────────────────────
  **WHAT DIRECTORIES ARE COMPARED BY.**

  A directory is looked up by the key of its path, which is taken in four steps:

      lib\json␣     backslashes count as slashes      lib/json␣
                    padding does not count            lib/json
                    nor do slashes at the end         lib/json
                    nor does one `./` at the start    lib/json

  A text is its own key if it is like a way to a directory (`IsRelative`) and holds neither
  a backslash nor padding around it (`pathKey_of_smooth`).  That a slash behind a text or a
  `./` in front of it does not count depends on that end of the text alone
  (`pathKey_append_slash`, `pathKey_here_append`).  A project is found by its path alone if
  no other path has the key (`located_eq_singleton_iff`).
-/
import BuildPlan.Proofs.Coordinates
import BuildPlan.Proofs.Reactor.Gathering

namespace BuildPlan.Reactor

/-! ## §1. The steps. -/

/-- The character, but a slash for a backslash. -/
def slash (c : Char) : Char := if c = '\\' then '/' else c

/-- The characters without one `./` at the start. -/
def undotted : List Char → List Char
  | '.' :: '/' :: rest => rest
  | key => key

/-- The key in its steps: slashes for backslashes, padding, slashes at the end, a `./` at the start.
-/
theorem pathKeyChars_eq (cs : List Char) :
    pathKeyChars cs = undotted ((Text.trimChars (cs.map slash)).rdropWhile (· = '/')) := by
  unfold pathKeyChars undotted
  rfl

theorem toList_pathKey (s : String) : (pathKey s).toList = pathKeyChars s.toList :=
  String.toList_ofList

theorem slash_of_ne {c : Char} (h : c ≠ '\\') : slash c = c := if_neg h

/-- Neither a slash nor a backslash is padding. -/
theorem isBlank_slash (c : Char) : Text.isBlank (slash c) = Text.isBlank c := by
  unfold slash
  split
  · rename_i hc
    subst hc
    decide
  · rfl

theorem undotted_of_not_here {cs : List Char} (h : ¬ ['.', '/'] <+: cs) : undotted cs = cs := by
  unfold undotted
  split
  · exact absurd (List.prefix_append ['.', '/'] _) h
  · rfl

/-! ## §2. Texts that keep their ends. -/

/-- A text like the way to a directory: it begins with no slash and no `./`, and does not end with a
slash. -/
structure IsRelative (s : String) : Prop where
  ne_nil : s.toList ≠ []
  head_ne : s.toList.head? ≠ some '/'
  not_here : ¬ ['.', '/'] <+: s.toList
  last_ne : s.toList.getLast? ≠ some '/'

/-- No backslash in the text and no padding around it. -/
structure Smooth (s : String) : Prop where
  no_backslash : '\\' ∉ s.toList
  first_not_blank : ∀ c ∈ s.toList.head?, Text.isBlank c = false
  last_not_blank : ∀ c ∈ s.toList.getLast?, Text.isBlank c = false

/-- Being smooth as a test of the first and of the last character. -/
theorem smooth_iff {s : String} :
    Smooth s ↔
      '\\' ∉ s.toList ∧ (s.toList.head?.all fun c => !Text.isBlank c) = true ∧
        (s.toList.getLast?.all fun c => !Text.isBlank c) = true := by
  simp only [Option.all_eq_true, Bool.not_eq_true']
  constructor
  · intro h
    exact ⟨h.no_backslash, h.first_not_blank, h.last_not_blank⟩
  · intro h
    exact ⟨h.1, h.2.1, h.2.2⟩

instance (s : String) : Decidable (Smooth s) := decidable_of_iff _ smooth_iff.symm

/-- The text begins with no padding, no backslash and no `.\`. -/
structure BeginsPlainly (s : String) : Prop where
  first : ∀ c ∈ s.toList.head?, Text.isBlank c = false ∧ c ≠ '\\'
  second : ¬ ['.', '\\'] <+: s.toList

/-- The text ends with no padding. -/
def EndsPlainly (s : String) : Prop := ∀ c ∈ s.toList.getLast?, Text.isBlank c = false

variable {s : String}

theorem Smooth.beginsPlainly (h : Smooth s) : BeginsPlainly s where
  first c hc := by
    refine ⟨h.first_not_blank c hc, ?_⟩
    intro hbackslash
    exact h.no_backslash (hbackslash ▸ List.mem_of_head? hc)
  second hdot := h.no_backslash (hdot.subset (by simp))

theorem Smooth.endsPlainly (h : Smooth s) : EndsPlainly s := h.last_not_blank

/-- A smooth text is compared as it is. -/
theorem pathKey_of_smooth (h : Smooth s) (hrelative : IsRelative s) : pathKey s = s := by
  have hslash : s.toList.map slash = s.toList := by
    rw [List.map_congr_left fun c hc => slash_of_ne fun hc' => h.no_backslash (hc' ▸ hc),
      List.map_id']
  have htrim := Text.trimChars_eq_self_iff.2 ⟨h.first_not_blank, h.last_not_blank⟩
  have hlast : s.toList.rdropWhile (· = '/') = s.toList := by
    rw [List.rdropWhile_eq_self_iff]
    intro hne hlast
    refine hrelative.last_ne ?_
    rw [List.getLast?_eq_some_getLast hne, of_decide_eq_true hlast]
  rw [← String.toList_inj, toList_pathKey, pathKeyChars_eq, hslash, htrim, hlast,
    undotted_of_not_here hrelative.not_here]

/-- A slash behind a text does not count, if there is no padding between them. -/
theorem pathKey_append_slash (h : EndsPlainly s) (hne : s.toList ≠ []) :
    pathKey (s ++ "/") = pathKey s := by
  obtain ⟨front, last, hs⟩ := (List.eq_nil_or_concat' s.toList).resolve_left hne
  have hblank : Text.isBlank (slash last) = false := by
    rw [isBlank_slash]
    exact h last (by rw [hs, List.getLast?_concat]; rfl)
  -- padding is taken off in front of the last character, and slashes are then taken off behind it
  have htrim (rest : List Char) (hrest : rest.rdropWhile Text.isBlank = rest) :
      Text.trimChars (front.map slash ++ slash last :: rest) =
        ((front.map slash).dropWhile Text.isBlank ++ [slash last]) ++ rest := by
    rw [Text.trimChars_append_cons hblank, hrest, List.append_cons]
  have hlist : s.toList.map slash = front.map slash ++ slash last :: [] := by simp [hs]
  have hlist' : (s ++ "/").toList.map slash = front.map slash ++ slash last :: ['/'] := by
    simp [hs, slash]
  rw [← String.toList_inj, toList_pathKey, toList_pathKey, pathKeyChars_eq, pathKeyChars_eq, hlist,
    hlist', htrim [] rfl, htrim ['/'] (by decide), List.rdropWhile_concat_pos _ _ _ (by decide),
    List.append_nil]

/-- A character that no step touches keeps apart what is done in front of it and what is done behind
it. -/
theorem pathKeyChars_append_cons {c : Char} (hblank : Text.isBlank c = false) (hslash : c ≠ '/')
    (hbackslash : c ≠ '\\') (front rest : List Char) :
    pathKeyChars (front ++ c :: rest) =
      undotted ((front.map slash).dropWhile Text.isBlank ++
        c :: ((rest.map slash).rdropWhile Text.isBlank).rdropWhile (· = '/')) := by
  rw [pathKeyChars_eq, List.map_append, List.map_cons, slash_of_ne hbackslash,
    Text.trimChars_append_cons hblank, Text.rdropWhile_append_cons (decide_eq_false hslash)]

/-- A `./` in front of a text does not count, if the text begins plainly. -/
theorem pathKey_here_append (h : BeginsPlainly s) (hrelative : IsRelative s) :
    pathKey ("./" ++ s) = pathKey s := by
  obtain ⟨first, rest, hs⟩ := List.exists_cons_of_ne_nil hrelative.ne_nil
  obtain ⟨hblank, hbackslash⟩ := h.first first (by rw [hs]; rfl)
  have hslash : first ≠ '/' := by
    intro hfirst
    refine hrelative.head_ne ?_
    rw [hs, hfirst]
    rfl
  have hkey := pathKeyChars_append_cons hblank hslash hbackslash [] rest
  have hkey' := pathKeyChars_append_cons hblank hslash hbackslash ['.', '/'] rest
  have hshort := (List.rdropWhile_prefix (· = '/') ((rest.map slash).rdropWhile Text.isBlank)).trans
    (List.rdropWhile_prefix Text.isBlank (rest.map slash))
  generalize ((rest.map slash).rdropWhile Text.isBlank).rdropWhile (· = '/') = rest' at *
  -- what is left begins with `./` only if the text does, in one of the spellings
  have hhere : ¬ ['.', '/'] <+: first :: rest' := by
    intro hdot
    obtain ⟨rfl, hrest'⟩ := List.cons_prefix_cons.1 hdot
    obtain ⟨tail, htail⟩ := hrest'.trans hshort
    cases rest with
    | nil => exact absurd htail (by simp)
    | cons d rest =>
      injection htail with hd
      unfold slash at hd
      split at hd
      · rename_i hd'
        exact h.second (by rw [hs, hd']; exact List.prefix_append ['.', '\\'] rest)
      · exact hrelative.not_here (by rw [hs, ← hd]; exact List.prefix_append ['.', '/'] rest)
  rw [← String.toList_inj, toList_pathKey, toList_pathKey, String.toList_append, hs]
  calc pathKeyChars ("./".toList ++ first :: rest) = undotted (['.', '/'] ++ first :: rest') := hkey'
    _ = undotted (first :: rest') := (undotted_of_not_here hhere).symm
    _ = pathKeyChars (first :: rest) := hkey.symm

/-! ## §3. Looking for a directory. -/

variable {r : Reactor} {p : Project} {path path' : String}

/-- A directory finds the projects whose paths have its key. -/
theorem mem_located_iff :
    p ∈ r.located path ↔ p ∈ r.projects ∧ p.path.map pathKey = some (pathKey path) := by
  unfold located
  rw [List.mem_filter, decide_eq_true_iff]

theorem located_congr (r : Reactor) (h : pathKey path = pathKey path') :
    r.located path = r.located path' := by
  unfold located
  rw [h]

theorem mem_located_self (hp : p ∈ r.projects) (hpath : p.path = some path) :
    p ∈ r.located path :=
  mem_located_iff.2 ⟨hp, by rw [hpath, Option.map_some]⟩

/-- A project is all that its path finds if no other path has the key. -/
theorem located_eq_singleton_iff (hp : p ∈ r.projects) (hpath : p.path = some path) :
    r.located path = [p] ↔
      ∀ q ∈ r.projects, q.path.map pathKey = some (pathKey path) → q = p := by
  have hnodup : (r.located path).Nodup :=
    (List.Nodup.of_map Project.coordinate r.coordinates_nodup).filter _
  constructor
  · intro hfound q hq hkey
    have hmem := mem_located_iff.2 ⟨hq, hkey⟩
    rw [hfound] at hmem
    exact List.mem_singleton.1 hmem
  · intro honly
    refine List.perm_singleton.1 ((List.perm_ext_iff_of_nodup hnodup (List.nodup_singleton p)).2 ?_)
    intro q
    rw [List.mem_singleton]
    constructor
    · intro hq
      obtain ⟨hq, hkey⟩ := mem_located_iff.1 hq
      exact honly q hq hkey
    · intro hq
      exact hq ▸ mem_located_self hp hpath

end BuildPlan.Reactor
