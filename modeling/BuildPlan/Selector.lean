/-
  BuildPlan.Selector
  ──────────────────
  **HOW A USER NAMES A PROJECT.**

  A selector is a text (a coordinate, `:name`, a bare name or a directory) or a
  coordinate that needs no reading.  The two kinds are never equal, also where
  they read the same.
-/
import BuildPlan.Coordinate

namespace BuildPlan

/-- A way to name one project. -/
inductive Selector where
  /-- A text whose form decides how it is looked up. -/
  | text (s : String)
  /-- A coordinate, taken as it is. -/
  | exact (c : Coordinate)
deriving DecidableEq, Repr

namespace Selector

/-- The selector as it is shown. -/
def shown : Selector → String
  | text s => s
  | exact c => c.text

/-- The selector without padding around its text. -/
def trimmed : Selector → Selector
  | text s => text (Text.trim s)
  | exact c => exact c

end Selector

end BuildPlan
