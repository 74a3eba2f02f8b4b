/-
  BuildPlan.Text.Blank
  ────────────────────
  **BLANK CHARACTERS, AND CUTTING TEXT AT CHARACTERS.**

  Names, selectors and option values are padded, joined by commas and cut at
  colons.  What counts as padding is one fixed set of 29 characters: the
  Unicode white space and the four separators U+001C to U+001F.  The zero width
  space and the byte order mark are no padding.

  The functions work on `List Char`, where they are plain recursions:

      trimChars    without the blanks at both ends
      cut          what stands before and after the first separator
      fields       the pieces between separators, empty ones included
      words        the pieces between runs of blanks, none of them empty
-/

namespace BuildPlan.Text

/-! ## §1. The blank characters. -/

/-- Whether the code point of the character lies in one of the closed ranges. -/
def inRanges (ranges : List (Nat × Nat)) (c : Char) : Bool :=
  ranges.any fun r => r.1 ≤ c.toNat && c.toNat ≤ r.2

/-- The code points of the blank characters, as ascending closed ranges. -/
def blankRanges : List (Nat × Nat) :=
  [(0x09, 0x0D), (0x1C, 0x20), (0x85, 0x85), (0xA0, 0xA0), (0x1680, 0x1680), (0x2000, 0x200A),
   (0x2028, 0x2029), (0x202F, 0x202F), (0x205F, 0x205F), (0x3000, 0x3000)]

/-- Whether a character is padding. -/
def isBlank (c : Char) : Bool := inRanges blankRanges c

/-! ## §2. Trimming. -/

/-- The characters without the blanks at the end. -/
def trimEndChars (cs : List Char) : List Char := (cs.reverse.dropWhile isBlank).reverse

/-- The characters without the blanks at either end. -/
def trimChars (cs : List Char) : List Char := trimEndChars (cs.dropWhile isBlank)

/-- The text without the blanks at either end. -/
def trim (s : String) : String := String.ofList (trimChars s.toList)

/-! ## §3. Cutting at a separator. -/

/-- What stands before the first separator and, if there is one, what stands after it. -/
def cut (sep : Char) : List Char → List Char × Option (List Char)
  | [] => ([], none)
  | c :: cs =>
    if c = sep then ([], some cs)
    else (c :: (cut sep cs).1, (cut sep cs).2)

theorem cut_of_not_mem {sep : Char} {cs : List Char} (h : sep ∉ cs) : cut sep cs = (cs, none) := by
  induction cs with
  | nil => rfl
  | cons c cs ih =>
    obtain ⟨hc, hcs⟩ := List.ne_and_not_mem_of_not_mem_cons h
    simp [cut, Ne.symm hc, ih hcs]

/-- A text is cut at its first separator. -/
theorem cut_append_cons {sep : Char} {a b : List Char} (h : sep ∉ a) :
    cut sep (a ++ sep :: b) = (a, some b) := by
  induction a with
  | nil => simp [cut]
  | cons c a ih =>
    obtain ⟨hc, ha⟩ := List.ne_and_not_mem_of_not_mem_cons h
    simp [cut, Ne.symm hc, ih ha]

/-- The pieces between the separators, in order.  Text without a separator is its own only piece. -/
def fields (sep : Char) : List Char → List (List Char)
  | [] => [[]]
  | c :: cs =>
    if c = sep then [] :: fields sep cs
    else match fields sep cs with
      | [] => [[c]]
      | f :: fs => (c :: f) :: fs

/-- The pieces between runs of blanks, in order and none of them empty. -/
def words (cs : List Char) : List (List Char) :=
  ((cs.map fun c => if isBlank c then ' ' else c) |> fields ' ').filter (· ≠ [])

/-- The texts one after the other, with a separator between neighbours. -/
def joined (sep : String) : List String → String
  | [] => ""
  | [s] => s
  | s :: rest => s ++ sep ++ joined sep rest

end BuildPlan.Text
