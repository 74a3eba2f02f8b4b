/-
  BuildPlan.Proofs.Workspace.Report
  ─────────────────────────────────
  **WHICH TROUBLES OF LOADING ARE REPORTED.**

  A command that cannot load its workspace reports a defect of a descriptor with exit
  status 1, and two projects of one coordinate with exit status 6 (`Trouble.Reported`).
  Other troubles are not reported, and loading breaks off with them:

      undecodable   the bytes of a descriptor are no UTF-8 text
      nullInPath    the entry of a module holds the character zero
      unwritable    a value that is to be a text is, or holds, too long a number

  `BreaksOff` says where on its way loading meets them.  A workspace where it meets none
  loads or is reported, and no other does (`load_reports_iff`).  This is so in every
  language of settings; what is said against a text that is not in it is part of the
  report.

  The account is of the files as they are.  What a machine may add, a file that may not
  be read, a name or a path that is too long for it, a limit on how deep modules are
  nested, is no part of a file tree, and loading is not cut short by it.
-/
import BuildPlan.Command.Run
import BuildPlan.Proofs.Workspace.Survey
import BuildPlan.Settings.Toml

namespace BuildPlan.Workspace

open Settings (Defect Format WordlessDefaults WordlessProject)

variable {t : FileTree} {root directory : Path} {bytes : ByteArray} {e : Trouble} {s : Tour}

section Laws

variable [Format]

/-! ## §1. What a command reports. -/

/-- The trouble has an exit status and a message of its own. -/
inductive Trouble.Reported : Trouble → Int → String → Prop
  | defect (d : Defect) : Reported (.defect d) 1 d.message
  | duplicate (c : Coordinate) (paths : List (Option String)) :
      Reported (.fault (.duplicate c paths)) 6 (Fault.duplicate c paths).message

/-- A command that cannot load its workspace ends with the exit status of the trouble and with its
message, if it has them. -/
theorem exists_execute_eq {code : Int} {message : String} (h : load t root = .error e)
    (he : e.Reported code message) (verbose : Bool) (action : Command.Action) :
    ∃ out, Command.execute t root verbose action =
      .finished { exitCode := code, out := out, err := Command.failureLine message } := by
  cases action with
  | order options =>
    refine ⟨"", ?_⟩
    simp only [Command.execute, h]
    cases he <;> rfl
  | discover =>
    refine ⟨Command.discoverHeading, ?_⟩
    simp only [Command.execute, h]
    cases he <;> rfl

/-! ## §2. Breaking off at one descriptor. -/

/-- A descriptor has no entries if it is no text, or none in the language of settings. -/
theorem readEntries_eq_error_iff {source : String} :
    readEntries source bytes = .error e ↔
      (String.fromUTF8? bytes = none ∧ e = .undecodable) ∨
        ∃ text detail, String.fromUTF8? bytes = some text ∧
          Format.read (unifyNewlines text.toList) = .error detail ∧
            e = .defect (.unreadable source detail) := by
  unfold readEntries
  cases String.fromUTF8? bytes with
  | none => simp [eq_comm]
  | some text => cases hread : Format.read (unifyNewlines text.toList) <;>
      simp [hread, eq_comm]

/-- Reading the descriptor of a directory that is visited breaks off. -/
inductive VisitBreaksOff (directory : Path) (bytes : ByteArray) : Trouble → Prop
  /-- The bytes are no text. -/
  | undecodable (hbytes : String.fromUTF8? bytes = none) :
      VisitBreaksOff directory bytes .undecodable
  /-- The name or the namespace of the project has no text. -/
  | wordless {entries project : Settings.Entries}
      (hentries : readEntries (directory.child descriptorName).text bytes = .ok entries)
      (hproject : Settings.projectTable (directory.child descriptorName).text entries =
        .ok project)
      (hwordless : WordlessProject (directory.child descriptorName).text project) :
      VisitBreaksOff directory bytes .unwritable

/-- A visit that breaks off ends with its trouble. -/
theorem VisitBreaksOff.visit_eq (h : VisitBreaksOff directory bytes e) :
    visit directory bytes = .error e := by
  simp only [visit, bind_eq_error, mapError_eq_error, mapError_eq_ok]
  cases h with
  | undecodable hbytes => exact .inl (readEntries_eq_error_iff.2 (.inl ⟨hbytes, rfl⟩))
  | wordless hentries hproject hwordless =>
    have hdescribe := Settings.describe_eq_unwritable_iff.2 hwordless
    exact .inr ⟨_, hentries, .inr ⟨_, hproject, .inl ⟨_, hdescribe, rfl⟩⟩⟩

/-- A visit that fails breaks off or finds a defect. -/
theorem breaksOff_or_defect_of_visit (h : visit directory bytes = .error e) :
    VisitBreaksOff directory bytes e ∨ ∃ d, e = .defect d := by
  simp only [visit, bind_eq_error, mapError_eq_error, mapError_eq_ok,
    readEntries_eq_error_iff] at h
  rcases h with (⟨hbytes, rfl⟩ | ⟨_, _, -, -, rfl⟩) | ⟨entries, hentries, ⟨d, -, rfl⟩ |
    ⟨project, hproject, ⟨refusal, hdescribe, rfl⟩ | ⟨_, -, h⟩⟩⟩
  · exact .inl (.undecodable hbytes)
  · exact .inr ⟨_, rfl⟩
  · exact .inr ⟨d, rfl⟩
  · cases refusal with
    | defect d => exact .inr ⟨d, rfl⟩
    | unwritable =>
      exact .inl (.wordless hentries hproject (Settings.describe_eq_unwritable_iff.1 hdescribe))
  · exact absurd h (by simp [pure, Except.pure])

/-- Reading the defaults of a workspace breaks off. -/
inductive DefaultsBreakOff (t : FileTree) (root : Path) : Trouble → Prop
  /-- The bytes of the descriptor are no text. -/
  | undecodable {bytes : ByteArray} (hfile : t.file? (root.child descriptorName) = some bytes)
      (hbytes : String.fromUTF8? bytes = none) : DefaultsBreakOff t root .undecodable
  /-- A default has no text. -/
  | wordless {entries : Settings.Entries} (hentries : descriptorAt t root = .ok entries)
      (hwordless : WordlessDefaults (root.child descriptorName).text entries) :
      DefaultsBreakOff t root .unwritable

theorem DefaultsBreakOff.defaultsOf_eq (h : DefaultsBreakOff t root e) :
    defaultsOf t root = .error e := by
  simp only [defaultsOf, bind_eq_error, mapError_eq_error]
  cases h with
  | undecodable hfile hbytes =>
    left
    simp only [descriptorAt, hfile]
    exact readEntries_eq_error_iff.2 (.inl ⟨hbytes, rfl⟩)
  | wordless hentries hwordless =>
    exact .inr ⟨_, hentries, _, Settings.defaultRequest_eq_unwritable_iff.2 hwordless, rfl⟩

/-- Reading the defaults succeeds, breaks off or finds a defect. -/
theorem breaksOff_or_defect_of_defaultsOf (h : defaultsOf t root = .error e) :
    DefaultsBreakOff t root e ∨ ∃ d, e = .defect d := by
  simp only [defaultsOf, bind_eq_error, mapError_eq_error] at h
  rcases h with h | ⟨entries, hentries, refusal, hdefaults, rfl⟩
  · cases hfile : t.file? (root.child descriptorName) with
    | none =>
      simp only [descriptorAt, hfile] at h
      injection h with h
      exact .inr ⟨_, h.symm⟩
    | some bytes =>
      simp only [descriptorAt, hfile] at h
      rcases readEntries_eq_error_iff.1 h with ⟨hbytes, rfl⟩ | ⟨_, _, -, -, rfl⟩
      · exact .inl (.undecodable hfile hbytes)
      · exact .inr ⟨_, rfl⟩
  · cases refusal with
    | defect d => exact .inr ⟨d, rfl⟩
    | unwritable =>
      exact .inl (.wordless hentries (Settings.defaultRequest_eq_unwritable_iff.1 hdefaults))

/-! ## §3. Breaking off on the way. -/

omit [Format] in
/-- What a visit leads to and is no place: a module entry with the character zero in it, or an entry
without a text where there is to be a module or the version. -/
theorem error_mem_pending_iff {v : Visit} :
    .error e ∈ v.pending ↔
      (e = .nullInPath ∧ ∃ text, some text ∈ v.description.modules ∧ Path.holdsNull text = true) ∨
        e = .unwritable ∧
          (none ∈ v.description.modules ∨ v.description.version = some none) := by
  have hversion : .error e ∈ (if v.description.version = some none then
      [(.error .unwritable : Except Trouble Path)] else []) ↔
        v.description.version = some none ∧ e = .unwritable := by
    split <;> simp_all
  simp only [Visit.pending, Visit.modules, List.mem_append, List.mem_map, locate_eq_error_iff,
    hversion]
  constructor
  · rintro (⟨entry, hentry, ⟨rfl, he⟩ | ⟨text, rfl, hnull, he⟩⟩ | ⟨hversion, he⟩)
    · exact .inr ⟨he, .inl hentry⟩
    · exact .inl ⟨he, text, hentry, hnull⟩
    · exact .inr ⟨he, .inr hversion⟩
  · rintro (⟨he, text, hentry, hnull⟩ | ⟨he, hentry | hversion⟩)
    · exact .inl ⟨_, hentry, .inr ⟨text, rfl, hnull, he⟩⟩
    · exact .inl ⟨_, hentry, .inl ⟨rfl, he⟩⟩
    · exact .inr ⟨hversion, he⟩

/-- A trouble that is met in the place of a directory comes from a visit before. -/
theorem Tour.Reached.exists_of_error_mem (h : Tour.Reached t root s) (he : .error e ∈ s.pending) :
    ∃ v ∈ s.visited, .error e ∈ v.pending := by
  induction h with
  | refl => exact absurd he (by simp [Tour.start])
  | tail _ hmove ih =>
    cases hmove with
    | visit _ hv =>
      rcases List.mem_append.1 he with he | he
      · exact ⟨_, List.mem_append_right _ (List.mem_singleton_self _), he⟩
      · obtain ⟨w, hw, hew⟩ := ih (List.mem_cons_of_mem _ he)
        exact ⟨w, List.mem_append_left _ hw, hew⟩

/-- Loading breaks off. -/
inductive BreaksOff (t : FileTree) (root : Path) : Trouble → Prop
  /-- Before the first visit. -/
  | defaults {e : Trouble} (h : DefaultsBreakOff t root e) : BreaksOff t root e
  /-- At the descriptor of a directory that is next to be visited, and is new. -/
  | visit {defaults : Request} {visited : List Visit} {d : Path}
      {pending : List (Except Trouble Path)} {bytes : ByteArray} {e : Trouble}
      (hdefaults : defaultsOf t root = .ok defaults)
      (hs : Tour.Reached t root ⟨visited, .ok d :: pending⟩)
      (hnew : d ∉ visited.map Visit.directory)
      (hfile : t.file? (d.child descriptorName) = some bytes) (h : VisitBreaksOff d bytes e) :
      BreaksOff t root e
  /-- At an entry that leads to no place, or a version that has no text. -/
  | nowhere {defaults : Request} {visited : List Visit} {pending : List (Except Trouble Path)}
      {e : Trouble} (hdefaults : defaultsOf t root = .ok defaults)
      (hs : Tour.Reached t root ⟨visited, .error e :: pending⟩) : BreaksOff t root e

/-- Loading that breaks off ends with its trouble. -/
theorem BreaksOff.load_eq (h : BreaksOff t root e) : load t root = .error e := by
  cases h with
  | defaults h =>
    rw [Workspace.load_eq, h.defaultsOf_eq]
    rfl
  | visit hdefaults hs hnew hfile h =>
    exact load_of_ends hdefaults hs (.unusable hnew hfile h.visit_eq)
  | nowhere hdefaults hs => exact load_of_ends hdefaults hs .nowhere

/-- What loading breaks off with has neither an exit status nor a message of its own. -/
theorem BreaksOff.not_reported {code : Int} {message : String} (h : BreaksOff t root e) :
    ¬ e.Reported code message := by
  intro he
  cases h with
  | defaults h => cases h <;> cases he
  | visit _ _ _ _ h => cases h <;> cases he
  | nowhere _ hs =>
    obtain ⟨v, -, hv⟩ := hs.exists_of_error_mem List.mem_cons_self
    rcases error_mem_pending_iff.1 hv with ⟨rfl, -⟩ | ⟨rfl, -⟩ <;> cases he

/-- Loading that fails is reported or breaks off. -/
theorem reported_or_breaksOff (h : load t root = .error e) :
    (∃ code message, e.Reported code message) ∨ BreaksOff t root e := by
  have hloading := loading_load t root
  rw [h] at hloading
  cases hloading with
  | unread hdefaults =>
    -- nothing is visited before the defaults are read
    rcases breaksOff_or_defect_of_defaultsOf hdefaults with hbreaks | ⟨d, rfl⟩
    · exact .inr (.defaults hbreaks)
    · exact .inl ⟨_, _, .defect d⟩
  | stopped hdefaults hs hend =>
    cases hend with
    | nowhere => exact .inr (.nowhere hdefaults hs)
    | again _ => exact .inl ⟨_, _, .defect _⟩
    | missing _ _ => exact .inl ⟨_, _, .defect _⟩
    | unusable hnew hfile hvisit =>
      rcases breaksOff_or_defect_of_visit hvisit with hbreaks | ⟨d, rfl⟩
      · exact .inr (.visit hdefaults hs hnew hfile hbreaks)
      · exact .inl ⟨_, _, .defect d⟩
  | clash _ _ _ _ => exact .inl ⟨_, _, .duplicate _ _⟩

/-! ## §4. The law of the reports. -/

/-- **A workspace loads, or the trouble is reported with its exit status and its message, unless
loading breaks off on its way.** -/
theorem load_reports_iff (t : FileTree) (root : Path) :
    ((∃ loaded, load t root = .ok loaded) ∨
      ∃ e code message, load t root = .error e ∧ e.Reported code message ∧
        ∀ verbose action, ∃ out, Command.execute t root verbose action =
          .finished { exitCode := code, out := out, err := Command.failureLine message }) ↔
      ∀ e, ¬ BreaksOff t root e := by
  constructor
  · rintro (⟨loaded, hload⟩ | ⟨e', code, message, hload, hreported, -⟩) e hbreaks
    · rw [hbreaks.load_eq] at hload
      exact absurd hload (by simp)
    · rw [hbreaks.load_eq] at hload
      injection hload with he
      subst he
      exact hbreaks.not_reported hreported
  · intro hnone
    cases hload : load t root with
    | ok loaded => exact .inl ⟨loaded, rfl⟩
    | error e =>
      rcases reported_or_breaksOff hload with ⟨code, message, hreported⟩ | hbreaks
      · exact .inr ⟨e, code, message, rfl, hreported, exists_execute_eq hload hreported⟩
      · exact absurd hbreaks (hnone e)

end Laws

/-- A workspace whose descriptor is one byte that begins no character. -/
def strayByteFiles : FileTree where
  files := [(⟨["reactor.toml"]⟩, ⟨#[0xFF]⟩)]

/-- A byte that begins no character is not reported as a descriptor that cannot be read. -/
theorem stray_byte_is_not_reported :
    load strayByteFiles Path.top = .error .undecodable ∧
      (¬ ∃ code message, Trouble.undecodable.Reported code message) ∧
      Command.execute strayByteFiles Path.top false .discover = .broken .undecodable := by
  refine ⟨by decide +kernel, ?_, by decide +kernel⟩
  rintro ⟨code, message, h⟩
  cases h

end BuildPlan.Workspace
