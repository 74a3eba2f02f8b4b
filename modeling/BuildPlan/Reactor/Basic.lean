/-
  BuildPlan.Reactor.Basic
  ───────────────────────
  **THE PROJECTS OF A REACTOR, IN ORDER OF DISCOVERY.**

  A reactor holds each coordinate at most once, and that is part of its type.
  `Reactor.ofList` puts projects together one by one and stops at the first whose
  coordinate is taken.
-/
import BuildPlan.Fault
import BuildPlan.Project

namespace BuildPlan

/-- Projects with pairwise different coordinates, in order of discovery. -/
structure Reactor where
  /-- The projects, in order of discovery. -/
  projects : List Project
  coordinates_nodup : (projects.map Project.coordinate).Nodup
deriving DecidableEq, Repr

namespace Reactor

/-! ## §1. Looking at a reactor. -/

/-- The coordinates, in order of discovery. -/
def coordinates (r : Reactor) : List Coordinate := r.projects.map Project.coordinate

/-- The project with the given coordinate. -/
def get? (r : Reactor) (c : Coordinate) : Option Project :=
  r.projects.find? fun p => p.coordinate = c

/-- A coordinate is in a reactor when one of its projects has it. -/
instance : Membership Coordinate Reactor := ⟨fun r c => c ∈ r.coordinates⟩

instance (c : Coordinate) (r : Reactor) : Decidable (c ∈ r) :=
  inferInstanceAs (Decidable (c ∈ r.coordinates))

theorem mem_iff {c : Coordinate} {r : Reactor} :
    c ∈ r ↔ ∃ p ∈ r.projects, p.coordinate = c := by
  show c ∈ r.projects.map Project.coordinate ↔ _
  simp

theorem get?_eq_none_iff {c : Coordinate} {r : Reactor} : r.get? c = none ↔ c ∉ r := by
  simp [get?, mem_iff]

/-! ## §2. Putting a reactor together. -/

/-- The reactor without projects. -/
def empty : Reactor := ⟨[], by simp⟩

/-- The reactor with one more project at the end, unless its coordinate is taken. -/
def insert (r : Reactor) (p : Project) : Except Fault Reactor :=
  match h : r.get? p.coordinate with
  | some q => .error (.duplicate p.coordinate [q.path, p.path])
  | none => .ok
    { projects := r.projects ++ [p]
      coordinates_nodup := by
        have hp : p.coordinate ∉ r.projects.map Project.coordinate := get?_eq_none_iff.1 h
        rw [List.map_append, List.nodup_append]
        refine ⟨r.coordinates_nodup, by simp, ?_⟩
        intro a ha b hb hab
        simp only [List.map_cons, List.map_nil, List.mem_singleton] at hb
        exact hp (hb ▸ hab ▸ ha) }

/-- The reactor of the given projects, or a report of the first repeated coordinate. -/
def ofList (projects : List Project) : Except Fault Reactor :=
  projects.foldlM insert empty

/-! ## §3. Finding projects. -/

/-- The projects of the given name, in order of discovery. -/
def named (r : Reactor) (name : String) : List Project :=
  r.projects.filter fun p => p.coordinate.name = name

/-- The characters that a directory is compared by: backslashes count as slashes, and padding,
slashes at the end and one `./` at the start do not count. -/
def pathKeyChars (cs : List Char) : List Char :=
  let slashed := cs.map fun c => if c = '\\' then '/' else c
  match ((Text.trimChars slashed).reverse.dropWhile (· = '/')).reverse with
  | '.' :: '/' :: rest => rest
  | key => key

/-- What a directory is compared by. -/
def pathKey (path : String) : String := String.ofList (pathKeyChars path.toList)

/-- The projects in the given directory, in order of discovery. -/
def located (r : Reactor) (path : String) : List Project :=
  r.projects.filter fun p => p.path.map pathKey = some (pathKey path)

end Reactor

end BuildPlan
