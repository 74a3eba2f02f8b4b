/-
  BuildPlan.Planning.Journal
  ──────────────────────────
  **STEPS THAT LEAVE NOTES.**

  While a plan is made, each stage notes what it found, and the notes made before
  a failure are kept.  A `Journal` is a result together with the notes on the way
  to it.  The notes never influence the result: the result of a sequence of steps
  is the sequence of their results (`result_bind`).
-/
import BuildPlan.AlsoMake
import BuildPlan.Fault

namespace BuildPlan

/-- Something worth noting while a plan is made. -/
inductive Note where
  | related (projects edges : Nat)
  | ordered (order : List Coordinate)
  /-- Building starts again from a project, with so many of them left. -/
  | resumed (point : Coordinate) (left : Nat)
  | alsoMade (how : AlsoMake) (before after : Nat)
  | settled (chosen : List Coordinate)
  | failed (fault : Fault)
deriving DecidableEq, Repr

namespace Note

/-- The stage that a note comes from. -/
def stage : Note → String
  | related _ _ | ordered _ => "graph"
  | resumed _ _ | alsoMade _ _ _ | settled _ => "scope"
  | failed _ => "builder"

/-- The note in words. -/
def text : Note → String
  | related projects edges =>
    "Built precedence graph with " ++ toString projects ++ " projects and " ++ toString edges
      ++ " edges"
  | ordered order => "Canonical order: " ++ Coordinate.texts ", " order
  | resumed point left =>
    "Resuming from " ++ point.text ++ ": " ++ toString left ++ " projects left"
  | alsoMade how before after =>
    "Make behavior " ++ how.word ++ ": " ++ toString before ++ " -> " ++ toString after
      ++ " projects"
  | settled chosen => "Build set: " ++ Coordinate.texts ", " chosen
  | failed fault => "Graph build failed: " ++ fault.message

/-- The note as a line of a log. -/
def line (n : Note) : String := "DEBUG reactor_graph." ++ n.stage ++ ": " ++ n.text

end Note

/-- A result and the notes on the way to it. -/
structure Journal (ε α : Type) where
  /-- The notes, the first one first. -/
  notes : List Note
  result : Except ε α

namespace Journal

variable {ε ε' α β : Type}

/-- A result without notes. -/
def ofExcept (result : Except ε α) : Journal ε α := ⟨[], result⟩

/-- A note and no result of interest. -/
def note (n : Note) : Journal ε Unit := ⟨[n], .ok ()⟩

/-- A note on a condition, and no result of interest. -/
def noteIf (condition : Bool) (n : Note) : Journal ε Unit :=
  ⟨if condition then [n] else [], .ok ()⟩

/-- One journal after the other; the second is kept only if the first succeeds. -/
protected def bind (x : Journal ε α) (f : α → Journal ε β) : Journal ε β :=
  match x.result with
  | .error e => ⟨x.notes, .error e⟩
  | .ok a => ⟨x.notes ++ (f a).notes, (f a).result⟩

instance : Monad (Journal ε) where
  pure a := ⟨[], .ok a⟩
  bind := Journal.bind

@[simp] theorem result_ofExcept (r : Except ε α) : (ofExcept r).result = r := rfl

/-- A success is the same, however failures would be reported. -/
theorem result_mapError_of_ok {r : Except ε' α} {a : α} (h : r = .ok a) (report : ε' → ε) :
    (ofExcept (r.mapError report)).result = .ok a := by
  rw [h]
  rfl

/-- A failure is reported. -/
theorem result_mapError_of_error {r : Except ε' α} {e : ε'} (h : r = .error e)
    (report : ε' → ε) : (ofExcept (r.mapError report)).result = .error (report e) := by
  rw [h]
  rfl

@[simp] theorem result_bind (x : Journal ε α) (f : α → Journal ε β) :
    (x >>= f).result = x.result >>= fun a => (f a).result := by
  show (Journal.bind x f).result = _
  unfold Journal.bind
  cases x.result <;> rfl

/-- After a success, the rest decides. -/
theorem result_bind_of_ok {x : Journal ε α} {a : α} (h : x.result = .ok a)
    (f : α → Journal ε β) : (x >>= f).result = (f a).result := by
  rw [result_bind, h]
  rfl

/-- After a failure, the rest counts for nothing. -/
theorem result_bind_of_error {x : Journal ε α} {e : ε} (h : x.result = .error e)
    (f : α → Journal ε β) : (x >>= f).result = .error e := by
  rw [result_bind, h]
  rfl

end Journal

end BuildPlan
