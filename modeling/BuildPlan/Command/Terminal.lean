/-
  BuildPlan.Command.Terminal
  ──────────────────────────
  **WHAT A COMMAND SHOWS.**

  Lines of text, the heading of a phase of a command, and the line that reports a
  failure.  What is shown may come from the settings of a workspace, so the control
  sequences of a terminal are taken out of it.
-/
import BuildPlan.Text.ControlSequence

namespace BuildPlan.Command

/-- The text as a line of its own. -/
def line (text : String) : String := Text.withoutSequences text ++ "\n"

/-- Each of the texts as a line of its own. -/
def lines (texts : List String) : String := String.join (texts.map line)

/-- A line of sixty strokes. -/
def ruler : String := line (String.ofList (List.replicate 60 '─'))

/-- A heading between two rulers. -/
def heading (title : String) : String := line "" ++ ruler ++ line title ++ ruler

/-- The report of a failure. -/
def failureLine (message : String) : String := line ("Error: " ++ message)

end BuildPlan.Command
