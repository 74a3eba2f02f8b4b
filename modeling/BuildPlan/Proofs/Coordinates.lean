/-
  BuildPlan.Proofs.Coordinates
  ────────────────────────────
  **WRITING A COORDINATE AND READING IT BACK.**

  Reading looks at the text as a whole, writing puts two parts together, so not every
  coordinate comes back as it was written:

      org  core        org:core          comes back
      org  core:api    org:core:api      has a second colon
      ␣org core        ␣org:core         comes back without the padding
      ␣    core        ␣:core            loses its namespace with the padding

  A text reads as a coordinate when it is that coordinate's text without the padding, no
  part is empty and no part holds a colon (`parse?_eq_some_iff`).  So a coordinate comes
  back when it has two parts and is plain (`parse?_text_eq_some_iff`), and then no other
  coordinate has its text (`Plain.text_inj`).  A text is read when one inner colon is left
  in it without the padding, and then that is what is written (`parse_inverts_text`).
-/
import BuildPlan.Coordinate
import BuildPlan.Proofs.Text

namespace BuildPlan.Coordinate

variable {c c' : Coordinate} {s : String}

/-! ## §1. There and back. -/

/-- The characters of the namespace, a colon, those of the name. -/
theorem toList_text (c : Coordinate) : c.text.toList = c.space.toList ++ ':' :: c.name.toList := by
  simp [text]

/-- What reads as the coordinate is its text and padding around it, and the one colon in it stands
between two parts that are not empty. -/
theorem parse?_eq_some_iff :
    parse? s = some c ↔
      Text.trimChars s.toList = c.text.toList ∧
        (c.space ≠ "" ∧ c.name ≠ "") ∧ ':' ∉ c.space.toList ∧ ':' ∉ c.name.toList := by
  rw [toList_text]
  constructor
  · intro h
    unfold parse? at h
    split at h
    · exact absurd h (by simp)
    · rename_i space name hcut
      obtain ⟨hcs, hspace⟩ := Text.cut_eq_some_iff.1 hcut
      split at h
      · exact absurd h (by simp)
      · rename_i hparts
        rw [not_or, not_or] at hparts
        injection h with h
        subst h
        rw [String.toList_ofList, String.toList_ofList]
        exact ⟨hcs, ⟨mt String.ofList_eq_empty_iff.1 hparts.1,
          mt String.ofList_eq_empty_iff.1 hparts.2.1⟩, hspace, hparts.2.2⟩
  · rintro ⟨hs, ⟨hspace, hname⟩, hcolon, hcolon'⟩
    unfold parse?
    rw [hs, Text.cut_append_cons hcolon]
    have hparts : ¬ (c.space.toList = [] ∨ c.name.toList = [] ∨ ':' ∈ c.name.toList) := by
      rintro (h | h | h)
      · exact hspace (String.toList_eq_nil_iff.1 h)
      · exact hname (String.toList_eq_nil_iff.1 h)
      · exact hcolon' h
    simp only [if_neg hparts, String.ofList_toList]

/-- No part holds a colon, and there is no padding on the outer side of either part. -/
structure Plain (c : Coordinate) : Prop where
  space_no_colon : ':' ∉ c.space.toList
  name_no_colon : ':' ∉ c.name.toList
  space_no_padding : ∀ ch ∈ c.space.toList.head?, Text.isBlank ch = false
  name_no_padding : ∀ ch ∈ c.name.toList.getLast?, Text.isBlank ch = false

/-- Being plain as a test of the first and of the last character. -/
theorem plain_iff :
    c.Plain ↔
      (':' ∉ c.space.toList ∧ ':' ∉ c.name.toList) ∧
        (c.space.toList.head?.all fun ch => !Text.isBlank ch) = true ∧
          (c.name.toList.getLast?.all fun ch => !Text.isBlank ch) = true := by
  simp only [Option.all_eq_true, Bool.not_eq_true']
  constructor
  · intro h
    exact ⟨⟨h.space_no_colon, h.name_no_colon⟩, h.space_no_padding, h.name_no_padding⟩
  · rintro ⟨⟨hspace, hname⟩, hfirst, hlast⟩
    exact ⟨hspace, hname, hfirst, hlast⟩

instance (c : Coordinate) : Decidable c.Plain := decidable_of_iff _ plain_iff.symm

/-- There is no padding around the text of a coordinate when there is none on the outer sides of its
parts; the colon is none. -/
theorem trimChars_text_eq_self_iff :
    Text.trimChars c.text.toList = c.text.toList ↔
      (∀ ch ∈ c.space.toList.head?, Text.isBlank ch = false) ∧
        ∀ ch ∈ c.name.toList.getLast?, Text.isBlank ch = false := by
  have hcolon : Text.isBlank ':' = false := by decide
  rw [Text.trimChars_eq_self_iff, toList_text]
  refine and_congr ?_ ?_
  · cases c.space.toList <;> simp [hcolon]
  · rw [List.getLast?_append, List.getLast?_cons]
    cases c.name.toList.getLast? <;> simp [hcolon]

/-- A coordinate of two parts comes back when it is plain, and one with an empty part never does. -/
theorem parse?_text_eq_some_iff :
    parse? c.text = some c ↔ (c.space ≠ "" ∧ c.name ≠ "") ∧ c.Plain := by
  rw [parse?_eq_some_iff, trimChars_text_eq_self_iff]
  constructor
  · rintro ⟨⟨hspace, hname⟩, hparts, hcolon, hcolon'⟩
    exact ⟨hparts, hcolon, hcolon', hspace, hname⟩
  · rintro ⟨hparts, hplain⟩
    exact ⟨⟨hplain.space_no_padding, hplain.name_no_padding⟩, hparts, hplain.space_no_colon,
      hplain.name_no_colon⟩

example : ¬ Plain ⟨"org", "core:api"⟩ ∧ ¬ Plain ⟨" org", "core"⟩ ∧ Plain ⟨"org ", " core"⟩ := by
  decide

theorem Plain.trim_text (h : c.Plain) : Text.trim c.text = c.text := by
  unfold Text.trim
  rw [trimChars_text_eq_self_iff.2 ⟨h.space_no_padding, h.name_no_padding⟩, String.ofList_toList]

/-- No other coordinate has the text of a plain one, since there is one colon in it. -/
theorem Plain.text_inj (h : c.Plain) (htext : c'.text = c.text) : c' = c := by
  have hlist := congrArg String.toList htext
  rw [toList_text, toList_text] at hlist
  have hcount := congrArg (List.count ':') hlist
  rw [List.count_append, List.count_append, List.count_cons_self, List.count_cons_self,
    List.count_eq_zero.2 h.space_no_colon, List.count_eq_zero.2 h.name_no_colon] at hcount
  have hspace : ':' ∉ c'.space.toList := List.count_eq_zero.1 (by omega)
  have hcut := Text.cut_append_cons (b := c'.name.toList) hspace
  rw [hlist, Text.cut_append_cons h.space_no_colon] at hcut
  injection hcut with hs hn
  injection hn with hn
  obtain ⟨space, name⟩ := c
  obtain ⟨space', name'⟩ := c'
  rw [String.toList_inj] at hs hn
  simp only at hs hn
  rw [hs, hn]

/-! ## §2. Back and there. -/

/-- There is one colon among the characters, and it is neither the first nor the last of them. -/
def InnerColon (cs : List Char) : Prop :=
  cs.count ':' = 1 ∧ cs.head? ≠ some ':' ∧ cs.getLast? ≠ some ':'

instance (cs : List Char) : Decidable (InnerColon cs) := instDecidableAnd

/-- An inner colon parts the characters in two. -/
theorem innerColon_iff {cs : List Char} :
    InnerColon cs ↔
      ∃ space name, cs = space ++ ':' :: name ∧ (space ≠ [] ∧ name ≠ []) ∧ ':' ∉ space ∧
        ':' ∉ name := by
  constructor
  · intro ⟨hcount, hfirst, hlast⟩
    have hmem : ':' ∈ cs := List.count_pos_iff.1 (by omega)
    obtain ⟨space, name, rfl, hspace⟩ := List.eq_append_cons_of_mem hmem
    rw [List.count_append, List.count_cons_self, List.count_eq_zero.2 hspace] at hcount
    refine ⟨space, name, rfl, ⟨?_, ?_⟩, hspace, List.count_eq_zero.1 (by omega)⟩
    · intro hnil
      subst hnil
      exact hfirst rfl
    · intro hnil
      subst hnil
      exact hlast List.getLast?_concat
  · intro h
    obtain ⟨space, name, rfl, ⟨hspace, hname⟩, hcolon, hcolon'⟩ := h
    refine ⟨?_, ?_, ?_⟩
    · rw [List.count_append, List.count_cons_self, List.count_eq_zero.2 hcolon,
        List.count_eq_zero.2 hcolon']
    · rw [List.head?_append_of_ne_nil _ hspace]
      exact fun h => hcolon (List.mem_of_head? h)
    · rw [List.getLast?_append, List.getLast?_cons]
      obtain ⟨d, hd⟩ := Option.ne_none_iff_exists'.1 (mt List.getLast?_eq_none_iff.1 hname)
      rw [hd]
      intro h
      injection h with h
      exact hcolon' (h ▸ List.mem_of_getLast? hd)

/-- A text reads as some coordinate exactly if, once trimmed, it has one colon and that is inside.
-/
theorem exists_parse?_iff : (∃ c, parse? s = some c) ↔ InnerColon (Text.trimChars s.toList) := by
  rw [innerColon_iff]
  constructor
  · intro ⟨c, h⟩
    obtain ⟨htrim, ⟨hspace, hname⟩, hcolons⟩ := parse?_eq_some_iff.1 h
    exact ⟨c.space.toList, c.name.toList, htrim.trans c.toList_text,
      ⟨mt String.toList_eq_nil_iff.1 hspace, mt String.toList_eq_nil_iff.1 hname⟩, hcolons⟩
  · intro ⟨space, name, htrim, ⟨hspace, hname⟩, hcolons⟩
    refine ⟨⟨String.ofList space, String.ofList name⟩, parse?_eq_some_iff.2 ?_⟩
    rw [toList_text, String.toList_ofList, String.toList_ofList]
    exact ⟨htrim, ⟨mt String.ofList_eq_empty_iff.1 hspace, mt String.ofList_eq_empty_iff.1 hname⟩,
      hcolons⟩

/-- What is read is written without the padding. -/
theorem text_eq_trim (h : parse? s = some c) : c.text = Text.trim s := by
  obtain ⟨htrim, -⟩ := parse?_eq_some_iff.1 h
  rw [Text.trim, htrim, String.ofList_toList]

/-- A coordinate that is read with a report of what is wrong is the one that is read without. -/
theorem parse_eq_ok_iff : parse s = .ok c ↔ parse? s = some c := by
  unfold parse
  cases parse? s <;> simp

/-- **A text is read when one inner colon is left in it without the padding.  What is written for it
is then the text without the padding, and otherwise the text is handed back as it was given.  A
coordinate is read back from its text when no part is empty and it is plain.** -/
theorem parse_inverts_text (s : String) (c : Coordinate) :
    (parse s).map text =
        (if InnerColon (Text.trim s).toList then .ok (Text.trim s) else .error ⟨s⟩) ∧
      (parse c.text = .ok c ↔ (c.space ≠ "" ∧ c.name ≠ "") ∧ c.Plain) := by
  constructor
  · have htrim : (Text.trim s).toList = Text.trimChars s.toList := String.toList_ofList
    rw [htrim]
    cases hparse : parse? s with
    | some d =>
      rw [if_pos (exists_parse?_iff.1 ⟨d, hparse⟩), parse_eq_ok_iff.2 hparse, ← text_eq_trim hparse]
      rfl
    | none =>
      have hcolon : ¬ InnerColon (Text.trimChars s.toList) := by
        rw [← exists_parse?_iff, hparse]
        simp
      rw [if_neg hcolon]
      unfold parse
      rw [hparse]
      rfl
  · rw [parse_eq_ok_iff, parse?_text_eq_some_iff]

example :
    (parse " org : core\t").map text = .ok "org : core" ∧ parse " :core" = .error ⟨" :core"⟩ := by
  decide

end BuildPlan.Coordinate
