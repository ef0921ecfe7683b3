import ChipSettings.Number.Numeral
import Mathlib.Data.List.TakeDrop
import Mathlib.Data.List.TakeWhile

/-! # The Characters of Accepted Numbers

  A text that is read as a number consists of letters, digits, signs and points.

  - `isNumeralChar` are these characters. A blank is none of them, so that a text with a blank
    in it is no number.
  - `isNumeralChar_of_readInt32?` and `isNumeralChar_of_read?`: the two readers accept nothing
    else.
-/

namespace ChipSettings.Number

/-- The characters that an accepted number consists of. -/
def isNumeralChar (c : Char) : Bool := c.isAlphanum || c == '+' || c == '-' || c == '.'

/-- The characters of a text are those of a number. -/
def IsNumeral (cs : List Char) : Prop := ∀ c ∈ cs, isNumeralChar c = true

theorem isNumeralChar_of_isAlphanum {c : Char} (h : c.isAlphanum = true) :
    isNumeralChar c = true := by
  simp [isNumeralChar, h]

theorem isNumeralChar_of_isDigit {c : Char} (h : c.isDigit = true) : isNumeralChar c = true :=
  isNumeralChar_of_isAlphanum (by simp [Char.isAlphanum, h])

theorem IsNumeral.cons {c : Char} {cs : List Char} (hc : isNumeralChar c = true)
    (hcs : IsNumeral cs) : IsNumeral (c :: cs) :=
  List.forall_mem_cons.2 ⟨hc, hcs⟩

theorem IsNumeral.append {as bs : List Char} (ha : IsNumeral as) (hb : IsNumeral bs) :
    IsNumeral (as ++ bs) :=
  List.forall_mem_append.2 ⟨ha, hb⟩

/-! ## Pieces of a Number -/

/-- A sign in front of such characters is one of them. -/
theorem isNumeral_of_splitSign {cs : List Char} (h : IsNumeral (splitSign cs).2) :
    IsNumeral cs := by
  unfold splitSign at h
  split at h
  · exact h.cons (by decide)
  · exact h.cons (by decide)
  · exact h

theorem isNumeral_of_isDigits {cs : List Char} (h : isDigits cs = true) : IsNumeral cs := by
  simp only [isDigits, Bool.and_eq_true, List.all_eq_true] at h
  exact fun c hc => isNumeralChar_of_isDigit (h.2 c hc)

theorem isNumeral_takeWhile_isDigit (cs : List Char) : IsNumeral (cs.takeWhile Char.isDigit) :=
  fun _ hc => isNumeralChar_of_isDigit (List.mem_takeWhile_imp hc)

/-- A character whose small letter is a letter or a digit is one itself. -/
theorem isAlphanum_of_toLower {c : Char} (h : c.toLower.isAlphanum = true) :
    c.isAlphanum = true := by
  by_cases hupper : c.isUpper = true
  · show (c.isUpper || c.isLower || c.isDigit) = true
    rw [hupper]
    rfl
  · have hsame : c.toLower = c := by
      unfold Char.toLower
      exact dif_neg fun hrange => hupper (decide_eq_true hrange)
    rwa [hsame] at h

/-- The letters of a word, in either case. -/
theorem isNumeral_of_map_toLower {word cs : List Char} (hword : word.all Char.isAlphanum = true)
    (h : cs.map Char.toLower = word) : IsNumeral cs := by
  intro c hc
  apply isNumeralChar_of_isAlphanum
  apply isAlphanum_of_toLower
  rw [List.all_eq_true] at hword
  exact hword c.toLower (h ▸ List.mem_map_of_mem hc)

/-! ## Integers -/

/-- An accepted integer consists of the characters of numbers. -/
theorem isNumeral_of_readInt32? {cs : List Char} {n : Int32} (h : readInt32? cs = some n) :
    IsNumeral cs := by
  unfold readInt32? at h
  simp only at h
  split at h
  · next hdigits => exact isNumeral_of_splitSign (isNumeral_of_isDigits hdigits)
  · cases h

/-! ## Reals -/

namespace Numeral

theorem isNumeral_of_readExponent? {cs : List Char} {e : Int} (h : readExponent? cs = some e) :
    IsNumeral cs := by
  unfold readExponent? at h
  split at h
  · exact fun _ hc => absurd hc List.not_mem_nil
  · next c cs =>
    split at h
    · next hletter =>
      simp only at h
      split at h
      · next hdigits =>
        refine (isNumeral_of_splitSign (isNumeral_of_isDigits hdigits)).cons ?_
        simp only [Bool.or_eq_true, beq_iff_eq] at hletter
        rcases hletter with rfl | rfl
        · decide
        · decide
      · cases h
    · cases h

/-- A fraction in front of such characters consists of them. -/
theorem isNumeral_of_splitFraction {cs : List Char} (h : IsNumeral (splitFraction cs).2) :
    IsNumeral cs := by
  unfold splitFraction at h
  split at h
  · next cs =>
    rw [List.span_eq_takeWhile_dropWhile] at h
    rw [← List.takeWhile_append_dropWhile (p := Char.isDigit) (l := cs)]
    exact ((isNumeral_takeWhile_isDigit cs).append h).cons (by decide)
  · exact h

theorem isNumeral_of_readDecimal? {cs : List Char} {d : Decimal} (h : readDecimal? cs = some d) :
    IsNumeral cs := by
  unfold readDecimal? at h
  simp only [List.span_eq_takeWhile_dropWhile] at h
  split at h
  · cases h
  · rw [Option.map_eq_some_iff] at h
    obtain ⟨e, hexponent, -⟩ := h
    rw [← List.takeWhile_append_dropWhile (p := Char.isDigit) (l := cs)]
    exact (isNumeral_takeWhile_isDigit cs).append
      (isNumeral_of_splitFraction (isNumeral_of_readExponent? hexponent))

end Numeral

/-- An accepted real consists of the characters of numbers. -/
theorem isNumeral_of_read? {cs : List Char} {x : Binary64} (h : Binary64.read? cs = some x) :
    IsNumeral cs := by
  simp only [Binary64.read?, Option.map_eq_some_iff] at h
  obtain ⟨numeral, hread, -⟩ := h
  unfold Numeral.read? at hread
  simp only at hread
  apply isNumeral_of_splitSign
  split at hread
  · next hword => exact isNumeral_of_map_toLower (by decide) hword
  · split at hread
    · next hword =>
      rcases hword with hword | hword
      · exact isNumeral_of_map_toLower (by decide) hword
      · exact isNumeral_of_map_toLower (by decide) hword
    · rw [Option.map_eq_some_iff] at hread
      obtain ⟨d, hdecimal, -⟩ := hread
      exact Numeral.isNumeral_of_readDecimal? hdecimal

end ChipSettings.Number
