/-! # Blank Characters and Trimming

  Two classes of blank characters matter to a settings editor:

  - `isBlank`: the Unicode property White_Space, trimmed from what a user types.
  - `isMarkupSpace`: space, tab, carriage return and line feed, the only blanks
    that separate anything inside a markup document.

  Trimming takes the class as a parameter, so both uses share one definition
  and its laws.
-/

namespace ChipSettings.Text

/-! ## Character Classes -/

/-- The Unicode property White_Space. -/
def isBlank (c : Char) : Bool :=
  let n := c.toNat
  (0x09 ≤ n && n ≤ 0x0D) || n == 0x20 || n == 0x85 || n == 0xA0 || n == 0x1680 ||
    (0x2000 ≤ n && n ≤ 0x200A) || n == 0x2028 || n == 0x2029 || n == 0x202F ||
    n == 0x205F || n == 0x3000

/-- The blanks of a markup document: space, tab, carriage return, line feed. -/
def isMarkupSpace (c : Char) : Bool :=
  c == ' ' || c == '\t' || c == '\r' || c == '\n'

/-- Every blank of a markup document is a Unicode blank. -/
theorem isBlank_of_isMarkupSpace {c : Char} (h : isMarkupSpace c = true) : isBlank c = true := by
  simp only [isMarkupSpace, Bool.or_eq_true, beq_iff_eq] at h
  rcases h with ((rfl | rfl) | rfl) | rfl <;> decide

/-! ## Trimming -/

/-- Drop the characters of class `p` from the right end. -/
def trimRight (p : Char → Bool) (cs : List Char) : List Char :=
  (cs.reverse.dropWhile p).reverse

/-- Drop the characters of class `p` from both ends. -/
def trimBoth (p : Char → Bool) (cs : List Char) : List Char :=
  trimRight p (cs.dropWhile p)

/-- Drop the Unicode blanks from both ends of a string. -/
def trim (s : String) : String :=
  String.ofList (trimBoth isBlank s.toList)

@[simp] theorem trimRight_nil (p : Char → Bool) : trimRight p [] = [] := rfl

@[simp] theorem trimBoth_nil (p : Char → Bool) : trimBoth p [] = [] := rfl

@[simp] theorem toList_trim (s : String) : (trim s).toList = trimBoth isBlank s.toList := by
  simp [trim]

end ChipSettings.Text
