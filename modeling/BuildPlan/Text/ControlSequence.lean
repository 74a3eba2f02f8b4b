/-
  BuildPlan.Text.ControlSequence
  ──────────────────────────────
  **TEXT WITHOUT THE CONTROL SEQUENCES OF A TERMINAL.**

  A control sequence tells a terminal to change colour or to move its cursor.  It
  stands among the characters that it is to act on:

      introducer     the escape character and an opening bracket
      parameters     any number of the characters from 0 to ?
      intermediates  any number of the characters from space to /
      final          one of the characters from @ to ~

  An introducer with no final character at its place begins no sequence, and is
  text like any other.
-/

namespace BuildPlan.Text

/-- The character that an introducer begins with. -/
def escape : Char := '\x1b'

/-- Whether a character may stand among the parameters of a sequence. -/
def isParameter (c : Char) : Bool := '0' ≤ c ∧ c ≤ '?'

/-- Whether a character may stand among the intermediates of a sequence. -/
def isIntermediate (c : Char) : Bool := ' ' ≤ c ∧ c ≤ '/'

/-- Whether a character ends a sequence. -/
def isFinal (c : Char) : Bool := '@' ≤ c ∧ c ≤ '~'

/-- What follows the sequence at the front of the characters, if there is one. -/
def afterSequence? : List Char → Option (List Char)
  | c :: '[' :: cs =>
    if c = escape then
      match (cs.dropWhile isParameter).dropWhile isIntermediate with
      | [] => none
      | c :: rest => if isFinal c then some rest else none
    else none
  | _ => none

/-- A sequence takes up some of the characters. -/
theorem length_afterSequence? {cs rest : List Char} (h : afterSequence? cs = some rest) :
    rest.length < cs.length := by
  unfold afterSequence? at h
  split at h
  case h_1 c cs =>
    have hparameters := (List.dropWhile_sublist (l := cs) isParameter).length_le
    have hintermediates :=
      (List.dropWhile_sublist (l := cs.dropWhile isParameter) isIntermediate).length_le
    grind
  case h_2 => simp at h

/-- The characters that no sequence takes up. -/
def dropSequences : List Char → List Char
  | [] => []
  | c :: cs =>
    match _ : afterSequence? (c :: cs) with
    | some rest => dropSequences rest
    | none => c :: dropSequences cs
termination_by cs => cs.length
decreasing_by
  · exact length_afterSequence? (by assumption)
  · simp

/-- The text without its control sequences. -/
def withoutSequences (s : String) : String := String.ofList (dropSequences s.toList)

/-- A character other than the escape character begins no sequence. -/
theorem dropSequences_cons {c : Char} (h : c ≠ escape) (cs : List Char) :
    dropSequences (c :: cs) = c :: dropSequences cs := by
  have hnone : afterSequence? (c :: cs) = none := by
    unfold afterSequence?
    split <;> simp_all
  rw [dropSequences]
  split <;> simp_all

/-- Text without the escape character stays as it is. -/
theorem dropSequences_eq_self {cs : List Char} (h : escape ∉ cs) : dropSequences cs = cs := by
  induction cs with
  | nil => rw [dropSequences]
  | cons c cs ih =>
    obtain ⟨hc, hcs⟩ := List.ne_and_not_mem_of_not_mem_cons h
    rw [dropSequences_cons (Ne.symm hc), ih hcs]

end BuildPlan.Text
