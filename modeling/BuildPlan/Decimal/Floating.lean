/-
  BuildPlan.Decimal.Floating
  ──────────────────────────
  **NUMBERS WITH FIFTY-THREE BINARY PLACES.**

  A finite number of double precision is a whole multiple of the least positive
  one, 2^-1074.  So its magnitude is held as a natural number in that unit, and
  every computation below is exact:

      magnitude < 2^53     neighbours are one unit apart
      else                 the spacing is the power of two that leaves
                           fifty-three places

  Reading a decimal rounds to the nearest such number, a tie to the even one.
-/

namespace BuildPlan.Decimal

/-- A number of double precision. -/
inductive Floating where
  /-- A finite number, its magnitude in units of 2^-1074. -/
  | finite (negative : Bool) (units : Nat)
  /-- An infinity. -/
  | infinite (negative : Bool)
  /-- The result of an undefined operation. -/
  | undefined
deriving DecidableEq, Repr

/-- A power of two. -/
def twoTo (n : Nat) : Nat := Nat.pow 2 n

/-- A power of ten. -/
def tenTo (n : Nat) : Nat := Nat.pow 10 n

/-- How many of the smallest units make one. -/
def unitsOfOne : Nat := twoTo 1074

/-- The magnitudes from here on are infinite. -/
def unitsOfInfinity : Nat := twoTo 2098

/-- The distance from a magnitude to the next greater one. -/
def spacing (units : Nat) : Nat := twoTo (units.log2 - 52)

/-- The quotient rounded to the nearest whole number, a tie to the even one. -/
def roundDiv (num den : Nat) : Nat :=
  let q := num / den
  let r := num % den
  if 2 * r < den then q else if den < 2 * r then q + 1 else q + q % 2

/-- The magnitude nearest to the quotient. -/
def nearestUnits (num den : Nat) : Nat :=
  let gap := spacing (num / den)
  roundDiv num (den * gap) * gap

/-- How many digits `digits · 10^exponent` has before the point; below one, the zeros after the
point count against it.  Beyond 400 either way this alone settles how the decimal is read. -/
def orderOfMagnitude (digits : Nat) (exponent : Int) : Int :=
  (Nat.toDigits 10 digits).length + exponent

/-- The number nearest to `digits · 10^exponent`. -/
def Floating.ofDecimal (negative : Bool) (digits : Nat) (exponent : Int) : Floating :=
  if digits = 0 ∨ orderOfMagnitude digits exponent < -400 then finite negative 0
  else if 400 < orderOfMagnitude digits exponent then infinite negative
  else
    let units :=
      nearestUnits (digits * tenTo exponent.toNat * unitsOfOne) (tenTo (-exponent).toNat)
    if units < unitsOfInfinity then finite negative units else infinite negative

/-- Whether the number is a zero of either sign. -/
def Floating.isZero : Floating → Bool
  | finite _ units => units = 0
  | _ => false

end BuildPlan.Decimal
