/-
  BuildPlan.Settings.Scalar
  ─────────────────────────
  **NUMBERS, DATES AND TRUTH VALUES.**

  Each of them is one word of a settings text, and the form of the word decides
  what it is:

      true  false
      42  +7  -1_000  0xff  0o17  0b101
      1.5  1e3  -inf  nan
      2024-01-02  07:32:00.5  2024-01-02T07:32:00Z

  An underscore stands between two digits; a decimal number has no zero in front.
-/
import BuildPlan.Settings.Value
import BuildPlan.Text.Hex

namespace BuildPlan.Settings

/-! ## §1. Digits. -/

/-- The digits of a numeral in the given base, underscores between them left out. -/
def digitsIn (base : Nat) : List Char → Option (List Nat)
  | [] => none
  | [c] => do
    let d ← Text.hexValue? c
    if d < base then some [d] else none
  | c :: '_' :: rest => do
    let d ← Text.hexValue? c
    if d < base then (digitsIn base rest).map (d :: ·) else none
  | c :: rest => do
    let d ← Text.hexValue? c
    if d < base then (digitsIn base rest).map (d :: ·) else none

/-- The number that digits stand for. -/
def ofDigits (base : Nat) (digits : List Nat) : Nat := digits.foldl (fun n d => base * n + d) 0

/-- The sign in front of a word and the rest of it. -/
def signed : List Char → Bool × List Char
  | '-' :: cs => (true, cs)
  | '+' :: cs => (false, cs)
  | cs => (false, cs)

/-- The digits of a decimal numeral: no zero stands in front of another digit. -/
def wholeDigits (cs : List Char) : Option (List Nat) :=
  match cs, digitsIn 10 cs with
  | '0' :: _ :: _, _ => none
  | _, digits => digits

/-! ## §2. Numbers. -/

/-- The whole number that a word stands for.  In base ten it has not too many digits. -/
def integer? : List Char → Option Int
  | '0' :: 'x' :: cs => (digitsIn 16 cs).map fun ds => (ofDigits 16 ds : Int)
  | '0' :: 'o' :: cs => (digitsIn 8 cs).map fun ds => (ofDigits 8 ds : Int)
  | '0' :: 'b' :: cs => (digitsIn 2 cs).map fun ds => (ofDigits 2 ds : Int)
  | cs =>
    let (negative, cs) := signed cs
    ((wholeDigits cs).filter fun ds => ds.length ≤ Value.mostDigits).map fun ds =>
      if negative then -(ofDigits 10 ds : Int) else (ofDigits 10 ds : Int)

/-- The exponent that a word stands for; zeros may stand in front. -/
def exponent? (cs : List Char) : Option Int :=
  let (negative, cs) := signed cs
  (digitsIn 10 cs).map fun ds =>
    if negative then -(ofDigits 10 ds : Int) else (ofDigits 10 ds : Int)

/-- The characters before the first that satisfies `p` and, if there is one, those after it. -/
def splitAtFirst (p : Char → Bool) (cs : List Char) : List Char × Option (List Char) :=
  match cs.dropWhile fun c => !p c with
  | [] => (cs, none)
  | _ :: rest => (cs.takeWhile fun c => !p c, some rest)

/-- The number of double precision that a word stands for: it has a fraction, an exponent or
both. -/
def float? (cs : List Char) : Option Decimal.Floating := do
  let (negative, body) := signed cs
  if body = "inf".toList then return .infinite negative
  if body = "nan".toList then return .undefined
  let (mantissa, exponent) := splitAtFirst (fun c => c = 'e' ∨ c = 'E') body
  let (whole, fraction) := splitAtFirst (· = '.') mantissa
  let whole ← wholeDigits whole
  if exponent.isNone ∧ fraction.isNone then none
  let fraction ← (fraction.map (digitsIn 10)).getD (some [])
  let exponent ← (exponent.map exponent?).getD (some 0)
  return .ofDecimal negative (ofDigits 10 (whole ++ fraction)) (exponent - fraction.length)

/-! ## §3. Dates and times. -/

/-- The number that exactly so many digits stand for. -/
def fixedDigits (width : Nat) (cs : List Char) : Option Nat :=
  if cs.length = width ∧ cs.all Char.isDigit then
    (digitsIn 10 cs).map (ofDigits 10)
  else none

/-- The date that a word stands for. -/
def date? (cs : List Char) : Option Date := do
  match splitAtFirst (· = '-') cs with
  | (year, some rest) =>
    match splitAtFirst (· = '-') rest with
    | (month, some day) =>
      Date.of? (← fixedDigits 4 year) (← fixedDigits 2 month) (← fixedDigits 2 day)
    | _ => none
  | _ => none

/-- The microseconds of a fraction of a second; what is smaller is cut off. -/
def micros? (cs : List Char) : Option Nat :=
  if cs ≠ [] ∧ cs.all Char.isDigit then
    fixedDigits 6 ((cs ++ List.replicate 6 '0').take 6)
  else none

/-- The time of day that a word stands for. -/
def time? : List Char → Option Time
  | h :: h' :: ':' :: m :: m' :: ':' :: s :: s' :: rest => do
    let hour ← fixedDigits 2 [h, h']
    let minute ← fixedDigits 2 [m, m']
    let second ← fixedDigits 2 [s, s']
    let micro ← match rest with
      | [] => some 0
      | '.' :: fraction => micros? fraction
      | _ => none
    Time.of? hour minute second micro
  | _ => none

/-- The minutes that hours and minutes amount to. -/
def offsetMinutes? : List Char → Option Nat
  | [h, h', ':', m, m'] => do
    let hour ← fixedDigits 2 [h, h']
    let minute ← fixedDigits 2 [m, m']
    if hour < 24 ∧ minute < 60 then some (60 * hour + minute) else none
  | _ => none

/-- The offset that a word stands for. -/
def offset? : List Char → Option Offset
  | ['Z'] | ['z'] => some .universal
  | '+' :: cs => (offsetMinutes? cs).map .ahead
  | '-' :: cs => (offsetMinutes? cs).map .behind
  | _ => none

/-- The time of day that a word stands for and its offset, if it ends in one. -/
def offsetTime? (cs : List Char) : Option (Time × Option Offset) :=
  let isMark (c : Char) : Bool := c ∈ ['Z', 'z', '+', '-']
  let clock := cs.takeWhile fun c => !isMark c
  match cs.dropWhile fun c => !isMark c with
  | [] => (time? clock).map (·, none)
  | rest => do return (← time? clock, some (← offset? rest))

/-- The date and time that a word stands for, with a letter or a blank between them. -/
def dateTime? (cs : List Char) : Option Moment :=
  match cs.drop 10 with
  | c :: rest =>
    if c = 'T' ∨ c = 't' ∨ c = ' ' then do
      let date ← date? (cs.take 10)
      let (time, offset) ← offsetTime? rest
      return .dateTime date time offset
    else none
  | [] => none

/-- The moment that a word stands for. -/
def moment? (cs : List Char) : Option Moment :=
  (dateTime? cs).or ((date? cs).map .date) |>.or ((time? cs).map .time)

/-! ## §4. Words. -/

/-- The value that a word stands for. -/
def scalar? (word : List Char) : Option Value :=
  if word = "true".toList then some (.boolean true)
  else if word = "false".toList then some (.boolean false)
  else ((integer? word).map .integer).or <| ((float? word).map .float).or <|
    (moment? word).map .moment

/-- Whether a character belongs to a word. -/
def isWordChar (c : Char) : Bool := c.isAlphanum ∨ c ∈ ['+', '-', '_', '.', ':']

/-- The word at the front of a text and the rest.  A date takes in the time behind a single
blank. -/
def wordLexeme (cs : List Char) : List Char × List Char :=
  let word := cs.takeWhile isWordChar
  match (date? word).isSome, cs.dropWhile isWordChar with
  | true, ' ' :: c :: rest =>
    if c.isDigit then
      (word ++ ' ' :: (c :: rest).takeWhile isWordChar, (c :: rest).dropWhile isWordChar)
    else (word, ' ' :: c :: rest)
  | _, rest => (word, rest)

end BuildPlan.Settings
