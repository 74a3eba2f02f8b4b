/-
  BuildPlan.AlsoMake
  ──────────────────
  **WHICH RELATED PROJECTS ARE MADE AS WELL.**

  Next to the projects that a request names, it may ask for their prerequisites,
  for the projects that depend on them, for both, or for neither.  Each choice has
  one word, and only these four words are read.
-/
import BuildPlan.Text.Quoted

namespace BuildPlan

/-- Which projects related to the requested ones are made as well. -/
inductive AlsoMake where
  | nothing
  | prerequisites
  | dependents
  | both
deriving DecidableEq, Repr, Inhabited

namespace AlsoMake

/-- Every choice, in the order in which messages list them. -/
def all : List AlsoMake := [nothing, prerequisites, dependents, both]

/-- The word for a choice. -/
def word : AlsoMake → String
  | nothing => "none"
  | prerequisites => "upstream"
  | dependents => "downstream"
  | both => "both"

/-- The choice that a word stands for; no padding and no other case is accepted. -/
def ofWord? (s : String) : Option AlsoMake := all.find? fun m => m.word = s

theorem ofWord?_word (m : AlsoMake) : ofWord? m.word = some m := by
  cases m <;> decide

/-- What is reported of a word that stands for no choice. -/
def unknownWord (s : String) : String := Text.quoted s ++ " is not a valid MakeBehavior"

/-- Whether prerequisites are made as well. -/
def includesPrerequisites (m : AlsoMake) : Bool := m = prerequisites || m = both

/-- Whether dependents are made as well. -/
def includesDependents (m : AlsoMake) : Bool := m = dependents || m = both

/-- The choice that two flags amount to, or `otherwise` when neither is set. -/
def ofFlags (before after : Bool) (otherwise : AlsoMake) : AlsoMake :=
  match before, after with
  | true, true => both
  | true, false => prerequisites
  | false, true => dependents
  | false, false => otherwise

end AlsoMake

end BuildPlan
