/-
  BuildPlan.Decimal.Shortest
  ──────────────────────────
  **THE FEWEST DIGITS THAT READ BACK.**

  The reals that round to a number form an interval: from halfway to the neighbour
  below to halfway to the neighbour above, the ends included when the number is
  even.  Below a power of two the neighbour is half as far away.  For 1, 2, … 17
  digits the two neighbours of the number on that decimal grid are tested; the
  first grid with a hit wins, of two hits the nearer, and of two equally near ones
  the even one.
-/
import BuildPlan.Decimal.Floating

namespace BuildPlan.Decimal

/-- The number `digits · 10^exponent`. -/
structure Scaled where
  /-- The digits, as a number. -/
  digits : Nat
  /-- The power of ten that they count. -/
  exponent : Int
deriving DecidableEq, Repr

namespace Scaled

/-- Four times the number, in units, and multiplied by `10^(-exponent)` where that is whole. -/
def quadUnits (d : Scaled) : Nat := 4 * d.digits * tenTo d.exponent.toNat * unitsOfOne

/-- What a number of units is multiplied by to be compared with `quadUnits`. -/
def rescale (d : Scaled) (n : Nat) : Nat := n * tenTo (-d.exponent).toNat

/-- Whether the decimal rounds to the magnitude. -/
def readsBack (d : Scaled) (units : Nat) : Bool :=
  let gap := spacing units
  let below := if units = twoTo units.log2 ∧ 1 < gap then gap else 2 * gap
  let low := d.rescale (4 * units - below)
  let high := d.rescale (4 * units + 2 * gap)
  if (units / gap) % 2 = 0 then low ≤ d.quadUnits ∧ d.quadUnits ≤ high
  else low < d.quadUnits ∧ d.quadUnits < high

end Scaled

/-- The least power of ten that is greater than the magnitude. -/
def ceilingExponent (units : Nat) : Int :=
  (Nat.toDigits 10 (units * tenTo 400 / unitsOfOne)).length - 400

/-- The grid points next to the magnitude, the lower one first. -/
def neighbours (units : Nat) (exponent : Int) : Scaled × Scaled :=
  let lower := units * tenTo (-exponent).toNat / (unitsOfOne * tenTo exponent.toNat)
  (⟨lower, exponent⟩, ⟨lower + 1, exponent⟩)

/-- The better of the grid points next to the magnitude, if one of them reads back. -/
def hit? (units : Nat) (exponent : Int) : Option Scaled :=
  let (lower, upper) := neighbours units exponent
  match lower.readsBack units, upper.readsBack units with
  | false, false => none
  | true, false => some lower
  | false, true => some upper
  | true, true =>
    let middle := lower.quadUnits + upper.quadUnits
    let value := lower.rescale (8 * units)
    if value < middle then some lower
    else if middle < value then some upper
    else if lower.digits % 2 = 0 then some lower else some upper

/-- The exact decimal value of the magnitude. -/
def exact (units : Nat) : Scaled := ⟨units * Nat.pow 5 1074, -1074⟩

/-- The fewest digits that read back to the magnitude. -/
def shortest (units : Nat) : Scaled :=
  let top := ceilingExponent units
  ((List.range 17).findSome? fun n : Nat => hit? units (top - (n + 1 : Int))).getD (exact units)

/-- The decimal without zeros at the end of its digits; at most `fuel` of them are dropped. -/
def dropZeros : Nat → Scaled → Scaled
  | 0, d => d
  | fuel + 1, d =>
    if d.digits % 10 = 0 ∧ d.digits ≠ 0 then dropZeros fuel ⟨d.digits / 10, d.exponent + 1⟩
    else d

/-! ## Laying out a number. -/

/-- The digits of the exponent, at least two of them. -/
def exponentText (e : Nat) : String := if e < 10 then "0" ++ toString e else toString e

/-- A positive decimal: positional if its first digit counts at least `10^-4` and less than
`10^16`, and then with at least one digit after the point; else with a signed exponent. -/
def layout (d : Scaled) : String :=
  let ds := Nat.toDigits 10 d.digits
  let lead : Int := d.exponent + ds.length - 1
  if -4 ≤ lead ∧ lead < 16 then
    if 0 ≤ d.exponent then String.ofList (ds ++ List.replicate d.exponent.toNat '0') ++ ".0"
    else if 0 ≤ lead then
      String.ofList (ds.take (lead.toNat + 1)) ++ "." ++ String.ofList (ds.drop (lead.toNat + 1))
    else "0." ++ String.ofList (List.replicate (-lead - 1).toNat '0' ++ ds)
  else
    String.ofList (ds.take 1)
      ++ (if ds.length = 1 then "" else "." ++ String.ofList (ds.drop 1))
      ++ (if lead < 0 then "e-" else "e+") ++ exponentText lead.natAbs

/-- A decimal that is laid out is no empty text. -/
theorem layout_ne_empty (d : Scaled) : layout d ≠ "" := by
  unfold layout
  extract_lets ds lead
  split
  · split
    · simp
    · split <;> simp
  · -- the mark of the exponent is always written
    simp only [ne_eq, String.append_eq_empty_iff, not_and]
    rintro ⟨-, h⟩
    split at h <;> exact absurd h (by decide)

/-- The number with the fewest digits that identify it. -/
def Floating.text : Floating → String
  | .undefined => "nan"
  | .infinite negative => if negative then "-inf" else "inf"
  | .finite negative units =>
    (if negative then "-" else "")
      ++ (if units = 0 then "0.0" else layout (dropZeros 17 (shortest units)))

/-- Every number is written as something. -/
theorem Floating.text_ne_empty (x : Floating) : x.text ≠ "" := by
  cases x with
  | undefined => decide
  | infinite negative => cases negative <;> decide
  | finite negative units =>
    simp only [Floating.text, ne_eq, String.append_eq_empty_iff, not_and]
    intro _
    split
    · decide
    · exact layout_ne_empty _

end BuildPlan.Decimal
