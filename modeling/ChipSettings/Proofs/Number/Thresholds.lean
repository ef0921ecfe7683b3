import ChipSettings.Proofs.Number.Rounding
import Mathlib.Algebra.Order.Field.Power
import Mathlib.Tactic.Linarith
import Mathlib.Tactic.NormNum
import Mathlib.Tactic.Positivity
import Mathlib.Tactic.Ring

/-! # Where Rounding Overflows and Where It Vanishes

  A decimal is rounded to the nearest finite magnitude if it is not too great, and the nearest
  magnitude is not zero if it is not too small. Both thresholds are midpoints, and at both the
  tie goes to the even neighbour:

  - `overflowLimit` lies halfway between the greatest magnitude and the power of two above it.
    The greatest significand is odd, so that the midpoint itself overflows.
  - `underflowLimit` is half of the least positive magnitude. Zero is even, so that the midpoint
    itself vanishes.
  - `Decimal.toMagnitude?_eq_none_iff` and `Decimal.significand_eq_zero_iff` say so for the
    exact value of a decimal, whatever its digits and its exponent are.
-/

namespace ChipSettings.Number

/-! ## Rounding to an Integer -/

/-- Rounding stays at an integer or below it up to the midpoint above the integer: including the
    midpoint if the integer is even. -/
theorem roundHalfEven_le_iff {num den : Nat} (hden : 0 < den) (n : Nat) :
    roundHalfEven num den ≤ n ↔
      2 * num < (2 * n + 1) * den ∨ 2 * num = (2 * n + 1) * den ∧ n % 2 = 0 := by
  have hdivmod : den * (num / den) + num % den = num := Nat.div_add_mod num den
  have hrem : num % den < den := Nat.mod_lt num hden
  have hmid : (2 * n + 1) * den = 2 * (den * n) + den := by
    rw [Nat.add_mul, Nat.one_mul, Nat.mul_assoc, Nat.mul_comm n]
  unfold roundHalfEven
  simp only
  generalize num / den = quotient at *
  generalize num % den = remainder at *
  rcases Nat.lt_trichotomy quotient n with hlt | heq | hgt
  · have hstep : den * quotient + den ≤ den * n := Nat.mul_le_mul_left den hlt
    split_ifs <;> omega
  · -- the quotient is the integer, and the remainder decides
    subst heq
    split_ifs <;> omega
  · have hstep : den * n + den ≤ den * quotient := Nat.mul_le_mul_left den hgt
    split_ifs <;> omega

/-- What is at most an integer is not rounded above it. -/
theorem roundHalfEven_le {num den n : Nat} (hden : 0 < den) (h : num ≤ n * den) :
    roundHalfEven num den ≤ n := by
  rw [roundHalfEven_le_iff hden, Nat.add_mul, Nat.mul_assoc]
  omega

/-- What is at least an integer is not rounded below it. -/
theorem le_roundHalfEven {num den n : Nat} (hden : 0 < den) (h : n * den ≤ num) :
    n ≤ roundHalfEven num den := by
  have hquotient : n ≤ num / den := (Nat.le_div_iff_mul_le hden).2 h
  unfold roundHalfEven
  simp only
  split_ifs <;> omega

/-! ## Parts That Are No Magnitude -/

theorem twoTo_add (a b : Nat) : twoTo (a + b) = twoTo a * twoTo b := Nat.pow_add 2 a b

theorem twoTo_succ (n : Nat) : twoTo (n + 1) = 2 * twoTo n := Nat.mul_comm _ 2

theorem twoTo_le {a b : Nat} (h : a ≤ b) : twoTo a ≤ twoTo b :=
  Nat.pow_le_pow_right (by decide) h

namespace Magnitude

/-- A significand that fits is refused for its shift alone. -/
theorem ofParts?_eq_none_iff {m s : Nat} (hm : m ≤ significandLimit)
    (hlead : s = 0 ∨ leadingBit ≤ m) :
    ofParts? m s = none ↔ greatestShift < s ∨ s = greatestShift ∧ m = significandLimit := by
  have hlimit : significandLimit = 2 * leadingBit := rfl
  have hpos : 0 < leadingBit := by decide
  have hgreatest : 0 < greatestShift := by decide
  unfold ofParts?
  by_cases hfull : m = significandLimit
  · simp only [hfull, if_true, dite_eq_right_iff, reduceCtorEq, imp_false, and_true, false_or]
    omega
  · simp only [if_neg hfull, dite_eq_right_iff, reduceCtorEq, imp_false]
    omega

/-- A magnitude is zero if it is made of the significand zero. -/
theorem significand_of_ofParts? {m s : Nat} {x : Magnitude} (h : ofParts? m s = some x) :
    x.significand = 0 ↔ m = 0 := by
  unfold ofParts? at h
  obtain ⟨_, hparts⟩ := Option.dite_none_right_eq_some.1 h
  cases hparts
  show (if m = significandLimit then leadingBit else m) = 0 ↔ m = 0
  by_cases hfull : m = significandLimit
  · rw [if_pos hfull, hfull]
    decide
  · rw [if_neg hfull]

/-! ## Quotients -/

/-- A quotient is rounded at some shift: counted in steps of that shift it stays below the limit
    of significands, and it has a leading bit if the shift is positive. -/
theorem exists_ofRatio?_eq (num : Nat) {den : Nat} (hden : 0 < den) :
    ∃ shift, ofRatio? num den =
        ofParts? (roundHalfEven (num * unitsPerOne) (den * twoTo shift)) shift ∧
      num * unitsPerOne < significandLimit * (den * twoTo shift) ∧
      (shift = 0 ∨ leadingBit * (den * twoTo shift) ≤ num * unitsPerOne) := by
  refine ⟨(num * unitsPerOne / den).log2 - 52, rfl, ?_⟩
  generalize num * unitsPerOne = scaled
  have hregroup (a b : Nat) : twoTo a * (den * twoTo b) = twoTo (a + b) * den := by
    rw [twoTo_add, Nat.mul_comm den, Nat.mul_assoc]
  have hlimit : significandLimit = twoTo 53 := rfl
  have hlead : leadingBit = twoTo 52 := rfl
  rw [hlimit, hlead, hregroup, hregroup]
  constructor
  · rw [← Nat.div_lt_iff_lt_mul hden]
    have hlog : scaled / den < twoTo ((scaled / den).log2 + 1) := Nat.lt_log2_self
    exact Nat.lt_of_lt_of_le hlog (twoTo_le (by omega))
  · by_cases hshift : (scaled / den).log2 - 52 = 0
    · exact .inl hshift
    · right
      have hne : scaled / den ≠ 0 := by
        intro hzero
        rw [hzero] at hshift
        exact hshift rfl
      have hlog : twoTo (scaled / den).log2 ≤ scaled / den := Nat.log2_self_le hne
      rw [← Nat.le_div_iff_mul_le hden]
      exact Nat.le_trans (twoTo_le (by omega)) hlog

/-- The units from which on a quotient overflows: half a step above the greatest magnitude. -/
def overflowUnits : Nat := (2 * significandLimit - 1) * twoTo (greatestShift - 1)

/-- Half a step below the limit of significands, counted in half steps. -/
theorem odd_mul (n : Nat) :
    (2 * significandLimit - 1) * n = 2 * (significandLimit * n) - n := by
  rw [Nat.sub_mul, Nat.one_mul, Nat.mul_assoc]

/-- A quotient overflows from half a step above the greatest magnitude on. -/
theorem ofRatio?_eq_none_iff {num den : Nat} (hden : 0 < den) :
    ofRatio? num den = none ↔ overflowUnits * den ≤ num * unitsPerOne := by
  obtain ⟨shift, hround, hbelow, habove⟩ := exists_ofRatio?_eq num hden
  have hstep : 0 < den * twoTo shift := Nat.mul_pos hden (twoTo_pos shift)
  have hfits := roundHalfEven_le hstep (Nat.le_of_lt hbelow)
  have hleads := habove.imp_right (le_roundHalfEven hstep)
  have hlimit : significandLimit = 2 * leadingBit := rfl
  have hpos : 0 < leadingBit := by decide
  rw [hround, ofParts?_eq_none_iff hfits hleads]
  -- everything is counted in half steps of the greatest shift
  obtain ⟨half, hgreatest⟩ : ∃ half, greatestShift = half + 1 := ⟨2044, rfl⟩
  have hunits : overflowUnits * den =
      2 * (significandLimit * (den * twoTo half)) - den * twoTo half := by
    rw [← odd_mul, overflowUnits, hgreatest, Nat.add_sub_cancel, Nat.mul_assoc,
      Nat.mul_comm den]
  have hmany : den * twoTo half ≤ significandLimit * (den * twoTo half) :=
    Nat.le_mul_of_pos_left _ (by omega)
  rw [hunits, hgreatest]
  rcases Nat.lt_trichotomy shift (half + 1) with hlt | heq | hgt
  · have hle : den * twoTo shift ≤ den * twoTo half :=
      Nat.mul_le_mul_left _ (twoTo_le (by omega))
    have hscaled := Nat.mul_le_mul_left significandLimit hle
    omega
  · -- the greatest significand is odd, so that a tie goes up
    subst heq
    have hodd := @roundHalfEven_le_iff (num * unitsPerOne) _ hstep (significandLimit - 1)
    have hmid : 2 * (significandLimit - 1) + 1 = 2 * significandLimit - 1 := by omega
    have hparity : (significandLimit - 1) % 2 = 1 := by omega
    have hdouble : den * twoTo (half + 1) = 2 * (den * twoTo half) := by
      rw [twoTo_succ, Nat.mul_left_comm]
    rw [hmid, odd_mul, hdouble, Nat.mul_left_comm significandLimit] at hodd
    rw [hdouble] at hfits ⊢
    omega
  · have hle : den * twoTo (half + 1 + 1) ≤ den * twoTo shift :=
      Nat.mul_le_mul_left _ (twoTo_le hgt)
    have hfour : leadingBit * (den * twoTo (half + 1 + 1)) =
        2 * (significandLimit * (den * twoTo half)) := by
      rw [twoTo_succ, twoTo_succ, hlimit, Nat.mul_left_comm den, Nat.mul_left_comm den,
        Nat.mul_left_comm leadingBit, Nat.mul_left_comm leadingBit, Nat.mul_assoc 2 leadingBit]
    have hscaled := Nat.mul_le_mul_left leadingBit hle
    omega

/-- A quotient that does not overflow is rounded to zero up to half of the least positive
    magnitude. -/
theorem significand_eq_zero_iff_of_ofRatio? {num den : Nat} (hden : 0 < den) {x : Magnitude}
    (h : ofRatio? num den = some x) :
    x.significand = 0 ↔ 2 * (num * unitsPerOne) ≤ den := by
  obtain ⟨shift, hround, -, habove⟩ := exists_ofRatio?_eq num hden
  have hstep : 0 < den * twoTo shift := Nat.mul_pos hden (twoTo_pos shift)
  have hzero := @roundHalfEven_le_iff (num * unitsPerOne) _ hstep 0
  rw [hround] at h
  rw [significand_of_ofParts? h]
  by_cases hshift : shift = 0
  · -- zero is even, so that a tie goes down
    have hone : den * twoTo shift = den := by rw [hshift]; exact Nat.mul_one den
    rw [hone] at hzero ⊢
    omega
  · have hlead := habove.resolve_left hshift
    have hpos := le_roundHalfEven hstep hlead
    have hmany : 1 * (den * twoTo 0) ≤ leadingBit * (den * twoTo shift) :=
      Nat.mul_le_mul (by decide) (Nat.mul_le_mul_left _ (twoTo_le (Nat.zero_le _)))
    have hone : den * twoTo 0 = den := Nat.mul_one den
    have hbit : 0 < leadingBit := by decide
    omega

/-- Zero is the only magnitude without a significand. -/
theorem eq_zero_of_significand {x : Magnitude} (h : x.significand = 0) : x = zero := by
  obtain ⟨m, s, hm, hs, hlead⟩ := x
  obtain rfl : m = 0 := h
  -- without a significand there is no leading bit, so that there is no shift
  obtain rfl : s = 0 := hlead.resolve_right (by decide)
  rfl

end Magnitude

/-! ## The Thresholds as Rationals -/

/-- From here on a number rounds to an infinity: half a step above the greatest finite number. -/
def overflowLimit : ℚ := 2 ^ 1024 - 2 ^ 970

/-- Up to here a number rounds to zero: half of the least positive number. -/
def underflowLimit : ℚ := 1 / 2 ^ 1075

theorem cast_twoTo (n : Nat) : (twoTo n : ℚ) = 2 ^ n := Nat.cast_pow 2 n

theorem cast_tenTo (n : Nat) : (tenTo n : ℚ) = 10 ^ n := Nat.cast_pow 10 n

theorem underflowLimit_pos : 0 < underflowLimit := one_div_pos.2 (by positivity)

theorem overflowLimit_eq : overflowLimit = (2 ^ 54 - 1) * 2 ^ 970 := by
  rw [overflowLimit, show 1024 = 54 + 970 from rfl, pow_add, sub_mul, one_mul]

theorem overflowLimit_le : overflowLimit ≤ 10 ^ (310 : ℤ) := by
  have hpow : twoTo 1024 ≤ tenTo 310 := by decide +kernel
  have hcast : (twoTo 1024 : ℚ) ≤ tenTo 310 := Nat.cast_le.2 hpow
  rw [cast_twoTo, cast_tenTo] at hcast
  have hpos : (0 : ℚ) < 2 ^ 970 := by positivity
  rw [overflowLimit]
  exact (sub_le_self _ hpos.le).trans hcast

theorem le_underflowLimit : (10 : ℚ) ^ (-331 : ℤ) ≤ underflowLimit := by
  have hpow : twoTo 1075 ≤ tenTo 331 := by decide +kernel
  have hcast : (twoTo 1075 : ℚ) ≤ tenTo 331 := Nat.cast_le.2 hpow
  rw [cast_twoTo, cast_tenTo] at hcast
  rw [underflowLimit, zpow_neg, zpow_ofNat, ← one_div]
  exact one_div_le_one_div_of_le (by positivity) hcast

theorem underflowLimit_lt_overflowLimit : underflowLimit < overflowLimit := by
  have hone : underflowLimit < 1 := by
    rw [underflowLimit, div_lt_one (by positivity)]
    exact one_lt_pow₀ (by norm_num) (by norm_num)
  have hpow : (1 : ℚ) ≤ 2 ^ 970 := one_le_pow₀ (by norm_num)
  rw [overflowLimit_eq]
  exact hone.trans_le (one_le_mul_of_one_le_of_one_le (by norm_num) hpow)

namespace Magnitude

theorem cast_overflowUnits : (overflowUnits : ℚ) = overflowLimit * unitsPerOne := by
  have hodd : ((2 * significandLimit - 1 : Nat) : ℚ) = 2 ^ 54 - 1 := by
    rw [show 2 * significandLimit - 1 = 18014398509481983 from rfl]
    norm_num
  have hshift : greatestShift - 1 = 970 + 1074 := rfl
  rw [overflowUnits, Nat.cast_mul, hodd, hshift, twoTo_add, Nat.cast_mul, cast_twoTo 970,
    overflowLimit_eq, unitsPerOne, mul_assoc]

section Quotients

variable {num den : Nat}

/-- A quotient overflows from the limit on. -/
theorem ofRatio?_eq_none_iff_le_div (hden : 0 < den) :
    ofRatio? num den = none ↔ overflowLimit ≤ num / den := by
  have hden' : (0 : ℚ) < den := Nat.cast_pos.2 hden
  have hunit : (0 : ℚ) < unitsPerOne := Nat.cast_pos.2 (twoTo_pos 1074)
  rw [ofRatio?_eq_none_iff hden, ← Nat.cast_le (α := ℚ), Nat.cast_mul, Nat.cast_mul,
    cast_overflowUnits, le_div_iff₀ hden', mul_right_comm, mul_le_mul_iff_left₀ hunit]

/-- A quotient that does not overflow vanishes up to the limit. -/
theorem significand_eq_zero_iff_div_le (hden : 0 < den) {x : Magnitude}
    (h : ofRatio? num den = some x) : x.significand = 0 ↔ (num / den : ℚ) ≤ underflowLimit := by
  have hden' : (0 : ℚ) < den := Nat.cast_pos.2 hden
  have hunit : (0 : ℚ) < 2 ^ 1075 := by positivity
  have hdouble : 2 * (num * unitsPerOne) = num * twoTo 1075 := by
    rw [unitsPerOne, twoTo_succ 1074, Nat.mul_left_comm]
  rw [significand_eq_zero_iff_of_ofRatio? hden h, hdouble, ← Nat.cast_le (α := ℚ), Nat.cast_mul,
    cast_twoTo, underflowLimit, div_le_div_iff₀ hden' hunit, one_mul]

end Quotients

end Magnitude

/-! ## Decimals -/

namespace Decimal

/-- The exact value of a decimal. -/
def value (d : Decimal) : ℚ := d.digits * 10 ^ d.exponent

theorem value_nonneg (d : Decimal) : 0 ≤ d.value := by
  unfold value
  positivity

/-- A decimal is less than the power of ten of its order. -/
theorem value_lt (d : Decimal) : d.value < 10 ^ d.order := by
  have hdigits : d.digits < tenTo (digitCount d.digits) :=
    (Nat.length_toDigits_le_iff (by decide) (digitCount_pos _)).1 (Nat.le_refl _)
  have hcast : (d.digits : ℚ) < tenTo (digitCount d.digits) := Nat.cast_lt.2 hdigits
  rw [cast_tenTo] at hcast
  rw [value, order, zpow_add₀ (by norm_num), zpow_natCast]
  exact mul_lt_mul_of_pos_right hcast (by positivity)

/-- A decimal other than zero is at least a tenth of that power. -/
theorem le_value {d : Decimal} (h : d.digits ≠ 0) : 10 ^ (d.order - 1) ≤ d.value := by
  obtain ⟨count, hcount⟩ : ∃ count, digitCount d.digits = count + 1 :=
    Nat.exists_eq_add_one.2 (digitCount_pos _)
  have hdigits : tenTo count ≤ d.digits := by
    by_contra hlt
    by_cases hzero : count = 0
    · subst hzero
      exact hlt (Nat.pos_of_ne_zero h)
    · have := digitCount_le (Nat.pos_of_ne_zero hzero) (Nat.lt_of_not_le hlt)
      omega
  have hcast : (tenTo count : ℚ) ≤ d.digits := Nat.cast_le.2 hdigits
  rw [cast_tenTo] at hcast
  have horder : d.order - 1 = count + d.exponent := by
    rw [order, hcount]
    omega
  rw [value, horder, zpow_add₀ (by norm_num), zpow_natCast]
  exact mul_le_mul_of_nonneg_right hcast (by positivity)

/-- A decimal is a quotient, and it is rounded as that quotient unless its order decides. -/
theorem exists_ratio (d : Decimal) :
    ∃ num den : Nat, 0 < den ∧ d.value = num / den ∧
      (d.digits ≠ 0 → d.order ≤ greatestOrder → leastOrder ≤ d.order →
        d.toMagnitude? = Magnitude.ofRatio? num den) := by
  obtain ⟨digits, exponent⟩ := d
  cases exponent with
  | ofNat e =>
    refine ⟨digits * tenTo e, 1, Nat.one_pos, ?_, ?_⟩
    · rw [value, Nat.cast_mul, cast_tenTo, Nat.cast_one, div_one]
      exact congrArg _ (zpow_natCast 10 e)
    · intro hdigits hgreatest hleast
      rw [toMagnitude?, if_neg hdigits, if_neg (not_lt.2 hgreatest), if_neg (not_lt.2 hleast)]
  | negSucc e =>
    refine ⟨digits, tenTo (e + 1), tenTo_pos _, ?_, ?_⟩
    · rw [value, zpow_negSucc, cast_tenTo, div_eq_mul_inv]
    · intro hdigits hgreatest hleast
      rw [toMagnitude?, if_neg hdigits, if_neg (not_lt.2 hgreatest), if_neg (not_lt.2 hleast)]

/-- A decimal of a great order is beyond the limit. -/
theorem overflowLimit_le_value {d : Decimal} (h : d.digits ≠ 0) (horder : greatestOrder < d.order) :
    overflowLimit ≤ d.value := by
  have hexponent : (310 : ℤ) ≤ d.order - 1 := by
    have : (310 : ℤ) < d.order := horder
    omega
  calc overflowLimit ≤ 10 ^ (310 : ℤ) := overflowLimit_le
    _ ≤ 10 ^ (d.order - 1) := zpow_le_zpow_right₀ (by norm_num) hexponent
    _ ≤ d.value := le_value h

/-- A decimal of a small order is within the other limit. -/
theorem value_le_underflowLimit {d : Decimal} (horder : d.order < leastOrder) :
    d.value ≤ underflowLimit := by
  have hexponent : d.order ≤ (-331 : ℤ) := by
    have : d.order < (-330 : ℤ) := horder
    omega
  calc d.value ≤ 10 ^ d.order := d.value_lt.le
    _ ≤ 10 ^ (-331 : ℤ) := zpow_le_zpow_right₀ (by norm_num) hexponent
    _ ≤ underflowLimit := le_underflowLimit

/-- What the order of a decimal decides in advance, rounding would have decided: every decimal is
    rounded as the quotient that it is. -/
theorem exists_toMagnitude?_eq (d : Decimal) :
    ∃ num den : Nat, 0 < den ∧ d.value = num / den ∧
      d.toMagnitude? = Magnitude.ofRatio? num den := by
  obtain ⟨num, den, hden, hvalue, hround⟩ := d.exists_ratio
  have hoverflow : overflowLimit ≤ d.value → Magnitude.ofRatio? num den = none := by
    intro hle
    rw [Magnitude.ofRatio?_eq_none_iff_le_div hden, ← hvalue]
    exact hle
  have hvanish : d.value ≤ underflowLimit → Magnitude.ofRatio? num den = some .zero := by
    intro hle
    cases hx : Magnitude.ofRatio? num den with
    | none =>
      rw [Magnitude.ofRatio?_eq_none_iff_le_div hden, ← hvalue] at hx
      exact absurd underflowLimit_lt_overflowLimit (not_lt.2 (hx.trans hle))
    | some x =>
      rw [hvalue] at hle
      have hzero := (Magnitude.significand_eq_zero_iff_div_le hden hx).2 hle
      rw [Magnitude.eq_zero_of_significand hzero]
  refine ⟨num, den, hden, hvalue, ?_⟩
  by_cases hdigits : d.digits = 0
  · have hzero : d.value = 0 := by rw [value, hdigits, Nat.cast_zero, zero_mul]
    rw [toMagnitude?, if_pos hdigits, hvanish (hzero.trans_le underflowLimit_pos.le)]
  by_cases hgreatest : greatestOrder < d.order
  · rw [toMagnitude?, if_neg hdigits, if_pos hgreatest,
      hoverflow (overflowLimit_le_value hdigits hgreatest)]
  by_cases hleast : d.order < leastOrder
  · rw [toMagnitude?, if_neg hdigits, if_neg hgreatest, if_pos hleast,
      hvanish (value_le_underflowLimit hleast)]
  · exact hround hdigits (not_lt.1 hgreatest) (not_lt.1 hleast)

/-- A decimal overflows from the limit on, whatever its digits and its exponent are. -/
theorem toMagnitude?_eq_none_iff (d : Decimal) :
    d.toMagnitude? = none ↔ overflowLimit ≤ d.value := by
  obtain ⟨num, den, hden, hvalue, hround⟩ := d.exists_toMagnitude?_eq
  rw [hround, hvalue]
  exact Magnitude.ofRatio?_eq_none_iff_le_div hden

/-- A decimal that does not overflow vanishes up to the other limit. -/
theorem significand_eq_zero_iff {d : Decimal} {x : Magnitude} (h : d.toMagnitude? = some x) :
    x.significand = 0 ↔ d.value ≤ underflowLimit := by
  obtain ⟨num, den, hden, hvalue, hround⟩ := d.exists_toMagnitude?_eq
  rw [hvalue]
  exact Magnitude.significand_eq_zero_iff_div_le hden (hround.symm.trans h)

end Decimal

end ChipSettings.Number
