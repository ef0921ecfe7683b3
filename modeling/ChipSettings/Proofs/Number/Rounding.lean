import ChipSettings.Number.Decimal

/-! # Rounding Depends on the Value Alone

  A decimal can be spelled in many ways: zeros may stand at the end of its digits or in
  its exponent. Rounding must not see the difference, because a printed number drops such
  zeros. The chain of facts:

  - `roundHalfEven_mul_right`, `Magnitude.ofRatio?_mul_right`: a common factor of numerator
    and denominator does not matter, so equal quotients round alike.
  - `digitCount_mul_tenTo`: zeros at the end are counted as digits, so the order of a
    decimal is a function of its value too.
  - `Decimal.toMagnitude?_shift`: zeros may move between digits and exponent.
  - `Magnitude.ofRatio?_of_eq_units`: a quotient that is a magnitude is rounded to it.
-/

namespace ChipSettings.Number

/-! ## Common Factors -/

/-- A common factor of numerator and denominator does not change the rounding. -/
theorem roundHalfEven_mul_right (num den : Nat) {k : Nat} (hk : 0 < k) :
    roundHalfEven (num * k) (den * k) = roundHalfEven num den := by
  have hless (a b : Nat) : a * k < b * k ↔ a < b := Nat.mul_lt_mul_right hk
  unfold roundHalfEven
  simp only
  -- the quotient stays and the remainder scales, and so do both comparisons with one half
  rw [Nat.mul_div_mul_right _ _ hk, Nat.mul_mod_mul_right, ← Nat.mul_assoc 2]
  simp only [hless]

/-- An integer is rounded to itself. -/
theorem roundHalfEven_mul_self (n : Nat) {den : Nat} (hden : 0 < den) :
    roundHalfEven (n * den) den = n := by
  unfold roundHalfEven
  simp only
  rw [Nat.mul_mod_left, Nat.mul_div_cancel _ hden]
  exact if_pos (by omega)

namespace Magnitude

/-- A common factor of numerator and denominator does not change the nearest magnitude. -/
theorem ofRatio?_mul_right (num den : Nat) {k : Nat} (hk : 0 < k) :
    ofRatio? (num * k) (den * k) = ofRatio? num den := by
  unfold ofRatio?
  simp only
  have hnum : num * k * unitsPerOne = num * unitsPerOne * k := Nat.mul_right_comm ..
  rw [hnum, Nat.mul_div_mul_right _ _ hk, Nat.mul_right_comm den k,
    roundHalfEven_mul_right _ _ hk]

/-! ## Quotients That Are Magnitudes -/

/-- The shift of a magnitude is read off the binary logarithm of its units. -/
theorem log2_units (x : Magnitude) : x.units.log2 - 52 = x.shift := by
  obtain ⟨m, s, hm, -, hs⟩ := x
  show (m * twoTo s).log2 - 52 = s
  have hlimit : significandLimit = 2 ^ 53 := rfl
  by_cases hlead : leadingBit ≤ m
  · -- full significand: the leading bit stands at position 52 + s
    have hpow : 2 ^ (52 + s) = leadingBit * twoTo s := Nat.pow_add 2 52 s
    have hpow' : 2 ^ (52 + s + 1) = significandLimit * twoTo s := by
      rw [show 52 + s + 1 = 53 + s by omega]
      exact Nat.pow_add 2 53 s
    have hlow : 2 ^ (52 + s) ≤ m * twoTo s := by
      rw [hpow]
      exact Nat.mul_le_mul_right _ hlead
    have hhigh : m * twoTo s < 2 ^ (52 + s + 1) := by
      rw [hpow']
      exact Nat.mul_lt_mul_of_pos_right hm (twoTo_pos s)
    have hpos : 0 < 2 ^ (52 + s) := Nat.two_pow_pos _
    have hlog := (Nat.log2_eq_iff (show m * twoTo s ≠ 0 by omega)).2 ⟨hlow, hhigh⟩
    omega
  · -- otherwise there is no shift, and fewer than 53 bits
    have hzero : s = 0 := by omega
    subst hzero
    have hone : m * twoTo 0 = m := Nat.mul_one m
    rw [hone]
    by_cases hm0 : m = 0
    · subst hm0
      rfl
    · have := (Nat.log2_lt (k := 53) hm0).2 (by omega)
      omega

/-- The parts of a magnitude make it up again. -/
theorem ofParts?_self (x : Magnitude) : ofParts? x.significand x.shift = some x := by
  have hne : x.significand ≠ significandLimit := Nat.ne_of_lt x.canonical.1
  unfold ofParts?
  simp only [if_neg hne]
  exact dif_pos x.canonical

/-- A quotient that is exactly a magnitude is rounded to that magnitude. -/
theorem ofRatio?_of_eq_units {x : Magnitude} {num den : Nat} (hden : 0 < den)
    (h : num * unitsPerOne = x.units * den) : ofRatio? num den = some x := by
  unfold ofRatio?
  simp only
  rw [h, Nat.mul_div_cancel _ hden, log2_units]
  -- one place holds a whole number of units, so that nothing is rounded off
  have hsplit : x.units * den = x.significand * (den * twoTo x.shift) := by
    rw [units, Nat.mul_assoc, Nat.mul_comm (twoTo x.shift)]
  rw [hsplit, roundHalfEven_mul_self _ (Nat.mul_pos hden (twoTo_pos _))]
  exact ofParts?_self x

end Magnitude

/-! ## Counting Digits -/

theorem tenTo_add (a b : Nat) : tenTo (a + b) = tenTo a * tenTo b := Nat.pow_add 10 a b

theorem digitCount_pos (n : Nat) : 0 < digitCount n := Nat.length_toDigits_pos

/-- A number below a power of ten has at most as many digits. -/
theorem digitCount_le {n k : Nat} (hk : 0 < k) (h : n < tenTo k) : digitCount n ≤ k :=
  (Nat.length_toDigits_le_iff (by decide) hk).2 h

/-- A number from a power of ten on has more digits. -/
theorem lt_digitCount {n k : Nat} (h : tenTo k ≤ n) : k < digitCount n := by
  by_cases hk : 0 < k
  · refine Nat.lt_of_not_le fun hle => ?_
    have hlt : n < 10 ^ k := (Nat.length_toDigits_le_iff (by decide) hk).1 hle
    exact Nat.not_lt_of_le h hlt
  · have := digitCount_pos n
    omega

/-- One zero more at the end is one digit more. -/
theorem digitCount_mul_ten {n : Nat} (hn : 0 < n) : digitCount (n * 10) = digitCount n + 1 := by
  have happend : Nat.toDigits 10 (n * 10) = Nat.toDigits 10 n ++ ['0'] := by
    rw [Nat.mul_comm, ← Nat.toDigits_zero 10]
    exact (Nat.toDigits_append_toDigits (b := 10) (d := 0) (by decide) hn (by decide)).symm
  unfold digitCount
  rw [happend, List.length_append]
  rfl

/-- Zeros at the end count as digits. -/
theorem digitCount_mul_tenTo {n : Nat} (hn : 0 < n) (k : Nat) :
    digitCount (n * tenTo k) = digitCount n + k := by
  induction k with
  | zero => rw [show tenTo 0 = 1 from rfl, Nat.mul_one, Nat.add_zero]
  | succ k ih =>
    rw [tenTo_succ, ← Nat.mul_assoc, digitCount_mul_ten (Nat.mul_pos hn (tenTo_pos k)), ih]
    rfl

/-! ## Spellings of One Decimal -/

namespace Decimal

/-- Zeros at the end of the digits may as well stand in the exponent. -/
theorem toMagnitude?_shift (n k : Nat) (e : Int) :
    toMagnitude? ⟨n * tenTo k, e⟩ = toMagnitude? ⟨n, e + k⟩ := by
  by_cases hn : n = 0
  · subst hn
    rw [Nat.zero_mul]
    rfl
  have hpos : 0 < n := Nat.pos_of_ne_zero hn
  have hne : n * tenTo k ≠ 0 := Nat.ne_of_gt (Nat.mul_pos hpos (tenTo_pos k))
  -- the order is the same, so that both are rounded or both are out of range
  have horder : order ⟨n * tenTo k, e⟩ = order ⟨n, e + k⟩ := by
    show ((digitCount (n * tenTo k) : Nat) : Int) + e = digitCount n + (e + k)
    rw [digitCount_mul_tenTo hpos]
    omega
  unfold toMagnitude?
  rw [horder]
  simp only [hn, hne, if_false]
  -- both sides round the same quotient; where the point stands decides how it is written
  cases e with
  | ofNat a =>
    rw [show Int.ofNat a + (k : Int) = Int.ofNat (a + k) from rfl]
    simp only
    rw [Nat.mul_assoc, ← tenTo_add, Nat.add_comm k a]
  | negSucc a =>
    by_cases hak : a + 1 ≤ k
    · obtain ⟨j, rfl⟩ := Nat.exists_eq_add_of_le hak
      rw [show Int.negSucc a + ((a + 1 + j : Nat) : Int) = Int.ofNat j by
        rw [Int.negSucc_eq]; simp only [Int.ofNat_eq_natCast]; omega]
      simp only
      rw [Nat.add_comm (a + 1) j, tenTo_add, ← Nat.mul_assoc]
      have := Magnitude.ofRatio?_mul_right (n * tenTo j) 1 (tenTo_pos (a + 1))
      rw [Nat.one_mul] at this
      rw [this]
    · obtain ⟨j, rfl⟩ := Nat.exists_eq_add_of_le (show k ≤ a by omega)
      rw [show Int.negSucc (k + j) + (k : Int) = Int.negSucc j by
        rw [Int.negSucc_eq, Int.negSucc_eq]; omega]
      simp only
      rw [show k + j + 1 = j + 1 + k by omega, tenTo_add (j + 1) k,
        Magnitude.ofRatio?_mul_right _ _ (tenTo_pos k)]

end Decimal

end ChipSettings.Number
