import ChipSettings.Proofs.Form.Verdicts
import ChipSettings.Proofs.Number.Integers

/-! # Which Texts Are Accepted as Numbers

  The bar count asks for a positive integer, a real field for a number or for a positive number.
  What they say of a text depends only on the exact value of the numeral in it, whatever the
  length and the exponent of that numeral are.

  - An integer has to fit into 32 bits, and to be accepted it has to be above zero. Digits are
    counted by their places, however many zeros stand in front of them.
  - A numeral is no number from `overflowLimit` on, above zero and below it, as it would be rounded
    to an infinity. The words for the infinities and for `nan` are no numerals.
  - A numeral is not positive up to `underflowLimit`, as it would be rounded to zero, even if its
    exact value is above zero.
  - `integer_verdicts` is this for the bar count, `number_verdicts` for both rules of real fields,
    verdict by verdict.
-/

namespace ChipSettings

open Number Text

/-! ## Typed Integers -/

section TypedIntegers

variable {text : String} {n : Int32} {v : ℤ}

/-- A text is read as the integer that its numeral denotes. -/
theorem readInteger_eq_some_iff :
    readInteger text = some n ↔ DenotesInteger (trim text).toList n.toInt := by
  rw [readInteger, ← toList_trim, readInt32?_eq_some_iff]

/-- An integer with a property is read if the numeral has a value with that property, of 32 bits. -/
theorem exists_readInteger_iff {P : ℤ → Prop} :
    (∃ n, readInteger text = some n ∧ P n.toInt) ↔
      ∃ v, DenotesInteger (trim text).toList v ∧ P v ∧ -2 ^ 31 ≤ v ∧ v < 2 ^ 31 := by
  simp only [readInteger_eq_some_iff]
  rw [exists_int32_iff (P := fun v => DenotesInteger (trim text).toList v ∧ P v)]
  simp only [and_assoc]

theorem toInt_readInteger_eq_some_iff :
    (readInteger text).map Int32.toInt = some v ↔
      DenotesInteger (trim text).toList v ∧ -2 ^ 31 ≤ v ∧ v ≤ 2 ^ 31 - 1 := by
  rw [Option.map_eq_some_iff, exists_readInteger_iff (P := (· = v))]
  constructor
  · rintro ⟨w, hw, rfl, hlow, hhigh⟩
    exact ⟨hw, hlow, by omega⟩
  · rintro ⟨hv, hlow, hhigh⟩
    exact ⟨v, hv, rfl, hlow, by omega⟩

/-- A text is read as a positive integer if its value is one that is not too large. -/
theorem exists_readInteger_pos_iff :
    (∃ n, readInteger text = some n ∧ 0 < n) ↔
      ∃ v, DenotesInteger (trim text).toList v ∧ 1 ≤ v ∧ v ≤ 2 ^ 31 - 1 := by
  simp only [Int32.lt_iff_toInt_lt, Int32.toInt_zero]
  rw [exists_readInteger_iff (P := (0 < ·))]
  exact exists_congr fun v => and_congr_right fun _ => by omega

/-- A text is read as an integer that is not positive if its value is one that is not too far
    below zero. -/
theorem exists_readInteger_not_pos_iff :
    (∃ n, readInteger text = some n ∧ ¬ 0 < n) ↔
      ∃ v, DenotesInteger (trim text).toList v ∧ -2 ^ 31 ≤ v ∧ v ≤ 0 := by
  simp only [Int32.lt_iff_toInt_lt, Int32.toInt_zero]
  rw [exists_readInteger_iff (P := (¬ 0 < ·))]
  exact exists_congr fun v => and_congr_right fun _ => by omega

/-- No integer is read where there is no numeral and where its value does not fit into 32 bits. -/
theorem readInteger_eq_none_iff :
    readInteger text = none ↔ (¬ ∃ v, DenotesInteger (trim text).toList v) ∨
      ∃ v, DenotesInteger (trim text).toList v ∧ (v < -2 ^ 31 ∨ 2 ^ 31 - 1 < v) := by
  rw [← Option.map_eq_none_iff (f := Int32.toInt), Option.eq_none_iff_forall_ne_some]
  simp only [Ne, toInt_readInteger_eq_some_iff]
  constructor
  · intro hnone
    by_cases hsome : ∃ v, DenotesInteger (trim text).toList v
    · obtain ⟨v, hv⟩ := hsome
      refine .inr ⟨v, hv, ?_⟩
      by_contra hrange
      exact hnone v ⟨hv, by omega⟩
    · exact .inl hsome
  · rintro (hnone | ⟨v, hv, hrange⟩) w ⟨hw, hlow, hhigh⟩
    · exact hnone ⟨w, hw⟩
    · -- a text denotes one value only, which cannot be in range and out of it
      obtain rfl := hv.unique hw
      omega

end TypedIntegers

/-! ## Typed Numbers -/

section TypedNumbers

variable {text : String} {x : Binary64} {v : ℚ}

/-- A text is read as a finite number if this is what its numeral is rounded to. -/
theorem readNumber_eq_some_iff :
    readNumber text = some x ↔
      ∃ s : DecimalSpelling, s.text = (trim text).toList ∧
        ∃ m, s.decimal.toMagnitude? = some m ∧ .finite s.sign.isMinus m = x := by
  rw [readNumber, Option.filter_eq_some_iff, ← toList_trim]
  constructor
  · rintro ⟨hread, hfinite⟩
    cases x with
    | nan => cases hfinite
    | infinity => cases hfinite
    | finite negative m =>
      obtain ⟨s, htext, hsign, hround⟩ := Binary64.read?_eq_finite_iff.1 hread
      exact ⟨s, htext, m, hround, by rw [hsign]⟩
  · rintro ⟨s, htext, m, hround, rfl⟩
    exact ⟨Binary64.read?_eq_finite_iff.2 ⟨s, htext, rfl, hround⟩, rfl⟩

/-- A text that is read as a number denotes a value within the limits of that number. -/
theorem denotes_of_readNumber (h : readNumber text = some x) :
    ∃ v, Denotes (trim text).toList v ∧ |v| < overflowLimit ∧
      (x.isPositive = true ↔ underflowLimit < v) := by
  obtain ⟨s, htext, m, hround, rfl⟩ := readNumber_eq_some_iff.1 h
  have hlt : |s.value| < overflowLimit := by
    by_contra hle
    rw [not_lt, ← s.toMagnitude?_eq_none_iff, hround] at hle
    cases hle
  exact ⟨s.value, ⟨s, htext, rfl⟩, hlt, DecimalSpelling.isPositive_iff hround⟩

/-- A text that denotes a value below the limit is read as a number. -/
theorem exists_readNumber_of_denotes (hv : Denotes (trim text).toList v)
    (hlt : |v| < overflowLimit) :
    ∃ x, readNumber text = some x ∧ (x.isPositive = true ↔ underflowLimit < v) := by
  obtain ⟨s, htext, rfl⟩ := hv
  obtain ⟨m, hround⟩ : ∃ m, s.decimal.toMagnitude? = some m := by
    rw [← Option.ne_none_iff_exists', Ne, s.toMagnitude?_eq_none_iff, not_le]
    exact hlt
  exact ⟨_, readNumber_eq_some_iff.2 ⟨s, htext, m, hround, rfl⟩,
    DecimalSpelling.isPositive_iff hround⟩

theorem readNumber_isSome_iff :
    (readNumber text).isSome ↔ ∃ v, Denotes (trim text).toList v ∧ |v| < overflowLimit := by
  rw [Option.isSome_iff_exists]
  constructor
  · rintro ⟨x, hread⟩
    obtain ⟨v, hv, hlt, -⟩ := denotes_of_readNumber hread
    exact ⟨v, hv, hlt⟩
  · rintro ⟨v, hv, hlt⟩
    obtain ⟨x, hread, -⟩ := exists_readNumber_of_denotes hv hlt
    exact ⟨x, hread⟩

/-- A text is read as a positive number if its value is between the limits. -/
theorem exists_isPositive_iff :
    (∃ x, readNumber text = some x ∧ x.isPositive = true) ↔
      ∃ v, Denotes (trim text).toList v ∧ underflowLimit < v ∧ v < overflowLimit := by
  constructor
  · rintro ⟨x, hread, hpos⟩
    obtain ⟨v, hv, hlt, hiff⟩ := denotes_of_readNumber hread
    exact ⟨v, hv, hiff.1 hpos, (abs_lt.1 hlt).2⟩
  · rintro ⟨v, hv, hpos, hlt⟩
    have habs : |v| < overflowLimit := by
      rw [abs_of_pos (underflowLimit_pos.trans hpos)]
      exact hlt
    obtain ⟨x, hread, hiff⟩ := exists_readNumber_of_denotes hv habs
    exact ⟨x, hread, hiff.2 hpos⟩

/-- A text is read as a number that is not positive if its value is not above the lower limit and
    does not overflow below zero. -/
theorem exists_not_isPositive_iff :
    (∃ x, readNumber text = some x ∧ x.isPositive = false) ↔
      ∃ v, Denotes (trim text).toList v ∧ -overflowLimit < v ∧ v ≤ underflowLimit := by
  constructor
  · rintro ⟨x, hread, hpos⟩
    obtain ⟨v, hv, hlt, hiff⟩ := denotes_of_readNumber hread
    refine ⟨v, hv, (abs_lt.1 hlt).1, not_lt.1 fun hlow => ?_⟩
    rw [hiff.2 hlow] at hpos
    cases hpos
  · rintro ⟨v, hv, hlt, hlow⟩
    have habs : |v| < overflowLimit := abs_lt.2 ⟨hlt, hlow.trans_lt underflowLimit_lt_overflowLimit⟩
    obtain ⟨x, hread, hiff⟩ := exists_readNumber_of_denotes hv habs
    refine ⟨x, hread, Bool.eq_false_iff.2 fun hpos => ?_⟩
    exact not_lt.2 hlow (hiff.1 hpos)

/-- No number is read where there is no numeral and where the numeral overflows. -/
theorem readNumber_eq_none_iff :
    readNumber text = none ↔ (¬ ∃ v, Denotes (trim text).toList v) ∨
      ∃ v, Denotes (trim text).toList v ∧ overflowLimit ≤ |v| := by
  rw [← Option.not_isSome_iff_eq_none, readNumber_isSome_iff]
  constructor
  · intro hnone
    by_cases hsome : ∃ v, Denotes (trim text).toList v
    · obtain ⟨v, hv⟩ := hsome
      exact .inr ⟨v, hv, not_lt.1 fun hlt => hnone ⟨v, hv, hlt⟩⟩
    · exact .inl hsome
  · rintro (hnone | ⟨v, hv, hle⟩) ⟨w, hw, hlt⟩
    · exact hnone ⟨w, hw⟩
    · -- a text denotes one value only, which cannot be on both sides of the limit
      obtain rfl := hv.unique hw
      exact not_lt.2 hle hlt

end TypedNumbers

/-! ## Verdicts -/

/-- What the rule for the bar count says of a text, by the value that the text denotes without the
    blanks around it. Whatever the length of the numeral, a value of 32 bits is what is read. -/
theorem integer_verdicts (text : String) :
    (Rule.positiveInteger.check text = .valid ↔
      ∃ v, DenotesInteger (trim text).toList v ∧ 1 ≤ v ∧ v ≤ 2 ^ 31 - 1) ∧
    (Rule.positiveInteger.check text = .invalid .notPositive ↔
      ∃ v, DenotesInteger (trim text).toList v ∧ -2 ^ 31 ≤ v ∧ v ≤ 0) ∧
    (Rule.positiveInteger.check text = .invalid .notAnInteger ↔
      (¬ ∃ v, DenotesInteger (trim text).toList v) ∨
        ∃ v, DenotesInteger (trim text).toList v ∧ (v < -2 ^ 31 ∨ 2 ^ 31 - 1 < v)) ∧
    ∀ v, (readInteger text).map Int32.toInt = some v ↔
      DenotesInteger (trim text).toList v ∧ -2 ^ 31 ≤ v ∧ v ≤ 2 ^ 31 - 1 := by
  refine ⟨?_, ?_, ?_, fun v => toInt_readInteger_eq_some_iff⟩
  · rw [Rule.check_positiveInteger_eq_valid_iff, exists_readInteger_pos_iff]
  · rw [Rule.check_positiveInteger_eq_notPositive_iff, exists_readInteger_not_pos_iff]
  · rw [Rule.check_positiveInteger_eq_notAnInteger_iff, readInteger_eq_none_iff]

/-- Zeros in front of the largest count are not too many digits. -/
example : Rule.positiveInteger.check " +00000000002147483647\t" = .valid := by decide

/-- The digits of other scripts are no digits. -/
example : Rule.positiveInteger.check "٣" = .invalid .notAnInteger := by decide

/-- What the two rules for real numbers say of a text, by the exact value that the text denotes
    without the blanks around it. -/
theorem number_verdicts (text : String) :
    (Rule.number.check text = .valid ↔
      ∃ v, Denotes (trim text).toList v ∧ |v| < overflowLimit) ∧
    (Rule.number.check text = .invalid .notANumber ↔
      ¬ ∃ v, Denotes (trim text).toList v ∧ |v| < overflowLimit) ∧
    (Rule.positiveNumber.check text = .valid ↔
      ∃ v, Denotes (trim text).toList v ∧ underflowLimit < v ∧ v < overflowLimit) ∧
    (Rule.positiveNumber.check text = .invalid .notPositive ↔
      ∃ v, Denotes (trim text).toList v ∧ -overflowLimit < v ∧ v ≤ underflowLimit) ∧
    (Rule.positiveNumber.check text = .invalid .notANumber ↔
      (¬ ∃ v, Denotes (trim text).toList v) ∨
        ∃ v, Denotes (trim text).toList v ∧ overflowLimit ≤ |v|) := by
  refine ⟨?_, ?_, ?_, ?_, ?_⟩
  · rw [Rule.check_number_eq_valid_iff, readNumber_isSome_iff]
  · rw [Rule.check_number_eq_notANumber_iff, ← readNumber_isSome_iff,
      Option.not_isSome_iff_eq_none]
  · rw [Rule.check_positiveNumber_eq_valid_iff, exists_isPositive_iff]
  · rw [Rule.check_positiveNumber_eq_notPositive_iff, exists_not_isPositive_iff]
  · rw [Rule.check_positiveNumber_eq_notANumber_iff, readNumber_eq_none_iff]

/-- A word is no numeral, in any letter case. -/
example : Rule.number.check "\t-InFinity " = .invalid .notANumber := by decide +kernel

/-- A numeral above zero, but closer to it than to the least positive number. -/
example : Rule.positiveNumber.check "2.47032822920623272e-324" = .invalid .notPositive := by
  decide +kernel

end ChipSettings
