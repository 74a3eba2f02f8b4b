/-
  BuildPlan.Command.Options
  ─────────────────────────
  **THE OPTIONS OF THE COMMAND THAT SHOWS THE BUILD ORDER.**

  Options that name projects may be repeated, and each of their values lists
  selectors between commas.  A mark in front of a selected project, `!` or `-`,
  excludes it instead.  The exclusions of the workspace hold in any case; its
  choice of what is also made gives way to that of the options.
-/
import BuildPlan.Request

namespace BuildPlan.Command

/-- The options of the command that shows the build order. -/
structure OrderOptions where
  /-- The projects to build; a marked one is excluded. -/
  projects : List String := []
  exclude : List String := []
  resumeFrom : Option String := none
  alsoMake : Bool := false
  alsoMakeDependents : Bool := false
  asJson : Bool := false
deriving DecidableEq, Repr

/-- The selectors between the commas of all values, trimmed and without blank ones. -/
def selectorsOf (values : List String) : List (List Char) :=
  ((values.flatMap fun v => Text.fields ',' v.toList).map Text.trimChars).filter (· ≠ [])

/-- Whether a selector is marked as an exclusion. -/
def isMarked : List Char → Bool
  | c :: _ => c = '!' ∨ c = '-'
  | [] => false

/-- Characters as a selector. -/
def asSelector (cs : List Char) : Selector := .text (String.ofList cs)

/-- The request of the options over the defaults of the workspace. -/
def OrderOptions.request (o : OrderOptions) (defaults : Request) : Request :=
  let named := selectorsOf o.projects
  Request.of
    ((named.filter fun cs => !isMarked cs).map asSelector)
    (defaults.excluded.map (fun s => .text s.shown)
      ++ ((named.filter isMarked).map fun cs => asSelector (cs.drop 1))
      ++ (selectorsOf o.exclude).map asSelector)
    (o.resumeFrom.map .text)
    (AlsoMake.ofFlags o.alsoMake o.alsoMakeDependents defaults.alsoMake)

end BuildPlan.Command
