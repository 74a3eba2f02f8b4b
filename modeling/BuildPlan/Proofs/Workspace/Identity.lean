/-
  BuildPlan.Proofs.Workspace.Identity
  ───────────────────────────────────
  **WHICH PROJECTS OF A WORKSPACE ARE KNOWN BY THEIR TEXT.**

  The parents and the dependencies in a descriptor are read as coordinates.  The coordinate
  of the project itself is not read, it is put together from the namespace and the name,
  and these may be any texts that are not empty:

      org  core          org:core          plain
      org  core:api      org:core:api      two projects, one text, and it
      org:core  api      org:core:api      reads as neither

  The text of a loaded project reads as its coordinate, and stands for the project as a
  selector, when the coordinate is plain and only then; no two projects have that text
  (`texts_of_loaded`).
-/
import BuildPlan.Command.Terminal
import BuildPlan.Proofs.Reactor.Resolution
import BuildPlan.Proofs.Workspace.Survey
import BuildPlan.Settings.Toml

namespace BuildPlan.Workspace

variable {t : FileTree} {root : Path} {reactor : Reactor} {defaults : Request}
  {visited : List Visit} {p q : Project}

/-! ## §1. One text. -/

theorem eq_of_coordinate_eq (hp : p ∈ reactor.projects) (hq : q ∈ reactor.projects)
    (h : q.coordinate = p.coordinate) : q = p :=
  List.inj_on_of_nodup_map reactor.coordinates_nodup hq hp h

/-- Text without the escape character is printed as it is. -/
theorem line_inj {s s' : String} (hs : Text.escape ∉ s.toList) (hs' : Text.escape ∉ s'.toList)
    (h : Command.line s = Command.line s') : s = s' := by
  unfold Command.line Text.withoutSequences at h
  rw [Text.dropSequences_eq_self hs, Text.dropSequences_eq_self hs', String.ofList_toList,
    String.ofList_toList] at h
  have hlist := congrArg String.toList h
  rw [String.toList_append, String.toList_append] at hlist
  exact String.toList_inj.1 (List.append_cancel_right hlist)

section Laws

variable [Settings.Format]

/-! ## §2. Two parts. -/

/-- A descriptor that is read gives its project a namespace and a name. -/
theorem FileTree.Records.ne_empty {v : Visit} (h : t.Records v) :
    v.description.coordinate.space ≠ "" ∧ v.description.coordinate.name ≠ "" := by
  obtain ⟨bytes, -, hvisit⟩ := h
  obtain ⟨-, entries, project, -, -, hdescribe⟩ := visit_eq_ok_iff.1 hvisit
  exact Settings.describe_ne_empty hdescribe

/-- So every project of a loaded workspace has both. -/
theorem Survey.ne_empty (h : Survey t root visited reactor) (hp : p ∈ reactor.projects) :
    p.coordinate.space ≠ "" ∧ p.coordinate.name ≠ "" := by
  rw [h.projects_eq] at hp
  obtain ⟨v, hv, rfl⟩ := List.mem_map.1 hp
  exact (h.records v hv).ne_empty

/-! ## §3. The law of the texts. -/

/-- **The text of a loaded project reads as its coordinate, and as a selector stands for the
project, when the coordinate is plain and only then.  In that case a request takes no padding off the
selector, and no other project has the text or, control sequences apart, is printed as it is.** -/
theorem texts_of_loaded (h : load t root = .ok (reactor, defaults)) :
    ∀ p ∈ reactor.projects,
      (Coordinate.parse? p.coordinate.text = some p.coordinate ↔ p.coordinate.Plain) ∧
      (∀ origin, reactor.resolve origin (.text p.coordinate.text) = .ok p.coordinate ↔
        p.coordinate.Plain) ∧
      (p.coordinate.Plain →
        Selector.trimmed (.text p.coordinate.text) = .text p.coordinate.text ∧
        (∀ q ∈ reactor.projects, q.coordinate.text = p.coordinate.text → q = p) ∧
        ∀ q ∈ reactor.projects, Text.escape ∉ p.coordinate.text.toList →
          Text.escape ∉ q.coordinate.text.toList →
            Command.line q.coordinate.text = Command.line p.coordinate.text → q = p) := by
  obtain ⟨visited, -, -, hsurvey⟩ := exists_survey h
  intro p hp
  have hparts := hsurvey.ne_empty hp
  have hparse : Coordinate.parse? p.coordinate.text = some p.coordinate ↔ p.coordinate.Plain := by
    rw [Coordinate.parse?_text_eq_some_iff]
    exact and_iff_right hparts
  have hmem : p.coordinate ∈ reactor := Reactor.mem_iff.2 ⟨p, hp, rfl⟩
  refine ⟨hparse, ?_, ?_⟩
  · intro origin
    rw [Reactor.resolve_eq_ok_iff, Reactor.standsFor_text_iff hmem hparts.1, hparse]
  · intro hplain
    have hsame : ∀ q ∈ reactor.projects, q.coordinate.text = p.coordinate.text → q = p :=
      fun q hq htext => eq_of_coordinate_eq hp hq (hplain.text_inj htext)
    refine ⟨congrArg Selector.text hplain.trim_text, hsame, ?_⟩
    intro q hq hescape hescape' hline
    exact hsame q hq (line_inj hescape' hescape hline)

end Laws

/-- A workspace with two projects of one text. -/
def twinFiles : FileTree where
  files :=
    [(⟨["reactor.toml"]⟩,
        "[project]\nname = 'build'\nnamespace = 'org'\nmodules = ['one', 'two']\n".toUTF8),
      (⟨["one", "reactor.toml"]⟩, "[project]\nname = 'core:api'\nnamespace = 'org'\n".toUTF8),
      (⟨["two", "reactor.toml"]⟩, "[project]\nname = 'api'\nnamespace = 'org:core'\n".toUTF8)]

/-- The twins and the project that they are modules of. -/
def twinReactor : Reactor where
  projects :=
    [.declare ⟨"org", "build"⟩ none [⟨"org", "core:api"⟩, ⟨"org:core", "api"⟩] [] none (some "."),
      .declare ⟨"org", "core:api"⟩ none [] [] none (some "one"),
      .declare ⟨"org:core", "api"⟩ none [] [] none (some "two")]
  coordinates_nodup := by decide

theorem load_twinFiles : load twinFiles Path.top = .ok (twinReactor, {}) := by decide +kernel

/-- The law at two projects that share a text. -/
theorem texts_of_loaded_twins :
    load twinFiles Path.top = .ok (twinReactor, {}) ∧
      ∀ p ∈ twinReactor.projects,
        (Coordinate.parse? p.coordinate.text = some p.coordinate ↔ p.coordinate.Plain) ∧
        (∀ origin, twinReactor.resolve origin (.text p.coordinate.text) = .ok p.coordinate ↔
          p.coordinate.Plain) ∧
        (p.coordinate.Plain →
          Selector.trimmed (.text p.coordinate.text) = .text p.coordinate.text ∧
          (∀ q ∈ twinReactor.projects, q.coordinate.text = p.coordinate.text → q = p) ∧
          ∀ q ∈ twinReactor.projects, Text.escape ∉ p.coordinate.text.toList →
            Text.escape ∉ q.coordinate.text.toList →
              Command.line q.coordinate.text = Command.line p.coordinate.text → q = p) :=
  ⟨load_twinFiles, texts_of_loaded load_twinFiles⟩

/-- Twins load, though they have one text, and that reads as no coordinate and stands for no
project. -/
theorem twins_share_a_text :
    load twinFiles Path.top = .ok (twinReactor, {}) ∧
      ∃ p ∈ twinReactor.projects, ∃ q ∈ twinReactor.projects,
        p ≠ q ∧ p.coordinate.text = q.coordinate.text ∧
          Coordinate.parse? p.coordinate.text = none ∧
          twinReactor.resolve none (.text p.coordinate.text) =
            .error (.unresolved (.text p.coordinate.text) [] none) :=
  ⟨load_twinFiles, by decide⟩

end BuildPlan.Workspace
