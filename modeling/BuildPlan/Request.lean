/-
  BuildPlan.Request
  ─────────────────
  **WHAT A USER ASKS TO BUILD.**

  A request selects projects, excludes projects, names a point to resume from and
  says what is made as well.  `Request.of` brings the selectors of a user into
  order: text is trimmed, blank text is dropped, repeats are dropped, and a blank
  resume point is none.
-/
import BuildPlan.AlsoMake
import BuildPlan.Distinct
import BuildPlan.Selector

namespace BuildPlan

/-- The options that narrow a reactor down to the projects to build. -/
structure Request where
  /-- The projects to build; none at all stands for every project. -/
  selected : List Selector := []
  /-- The projects left out after everything else is settled. -/
  excluded : List Selector := []
  resumeFrom : Option Selector := none
  alsoMake : AlsoMake := .nothing
deriving DecidableEq, Repr

namespace Request

/-! ## §1. From the words of a user. -/

/-- The selectors with their text trimmed, without blank ones and without repeats. -/
def tidy (selectors : List Selector) : List Selector :=
  distinct ((selectors.map Selector.trimmed).filter (· ≠ .text ""))

/-- A tidy list holds the trimmed selectors, apart from the blank one. -/
theorem mem_tidy {selectors : List Selector} {s : Selector} :
    s ∈ tidy selectors ↔ s ≠ .text "" ∧ ∃ a ∈ selectors, a.trimmed = s := by
  unfold tidy
  rw [mem_distinct, List.mem_filter, List.mem_map, decide_eq_true_eq, and_comm]

/-- The selector with its text trimmed, or nothing if that leaves it blank. -/
def tidyOne (selector : Option Selector) : Option Selector :=
  (selector.map Selector.trimmed).filter (· ≠ .text "")

/-- The request that the given options amount to. -/
def of (selected excluded : List Selector) (resumeFrom : Option Selector)
    (alsoMake : AlsoMake) : Request where
  selected := tidy selected
  excluded := tidy excluded
  resumeFrom := tidyOne resumeFrom
  alsoMake := alsoMake

/-! ## §2. One line about a request. -/

/-- The parts of the description, one for each option in use. -/
def parts (r : Request) : List String :=
  let listed (label : String) (l : List Selector) : List String :=
    if l = [] then [] else [label ++ Text.joined "," (l.map Selector.shown)]
  listed "selected=" r.selected
    ++ listed "excluded=" r.excluded
    ++ (r.resumeFrom.map fun s => "resume-from=" ++ s.shown).toList
    ++ (if r.alsoMake = .nothing then [] else ["make-behavior=" ++ r.alsoMake.word])

/-- The options in use, on one line. -/
def describe (r : Request) : String :=
  if r.parts = [] then "no scope options" else Text.joined ", " r.parts

end Request

end BuildPlan
