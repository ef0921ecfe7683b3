/-! # Binary64 Numbers

  Real settings are binary64 numbers, kept as exact data rather than as machine
  words, so that every statement about them is arithmetic on natural numbers.

  - A `Magnitude` is `significand * 2 ^ shift` units, where the unit is the least
    positive number 2^-1074. The canonical form makes equal values equal data.
  - A `Binary64` is a signed magnitude, a signed infinity, or not a number.
  - `Magnitude.ofRatio?` rounds an exact quotient to the nearest magnitude, a half
    going to the even neighbour, and answers `none` when the quotient overflows.
-/

namespace ChipSettings.Number

/-! ## Powers -/

/-- Powers of two. -/
def twoTo (n : Nat) : Nat := Nat.pow 2 n

/-- Powers of five. -/
def fiveTo (n : Nat) : Nat := Nat.pow 5 n

/-- Powers of ten. -/
def tenTo (n : Nat) : Nat := Nat.pow 10 n

theorem tenTo_succ (n : Nat) : tenTo (n + 1) = tenTo n * 10 := rfl

theorem twoTo_pos (n : Nat) : 0 < twoTo n := Nat.pow_pos (by decide)

theorem fiveTo_pos (n : Nat) : 0 < fiveTo n := Nat.pow_pos (by decide)

theorem tenTo_pos (n : Nat) : 0 < tenTo n := Nat.pow_pos (by decide)

theorem tenTo_eq_fiveTo_mul_twoTo (n : Nat) : tenTo n = fiveTo n * twoTo n := Nat.mul_pow 5 2 n

/-! ## Magnitudes -/

/-- The leading bit of a full significand, 2^52. -/
def leadingBit : Nat := 0x10000000000000

/-- Significands have 53 bits, so they stay below 2^53. -/
def significandLimit : Nat := 0x20000000000000

/-- The shift of the greatest magnitudes. -/
def greatestShift : Nat := 2045

/-- A finite binary64 magnitude, `significand * 2 ^ shift` units of 2^-1074. -/
structure Magnitude where
  /-- The integral significand. -/
  significand : Nat
  /-- Binary exponent above that of the unit. -/
  shift : Nat
  /-- 53 significant bits, a bounded exponent, and no shift where the significand
      leaves its leading bit free. -/
  canonical : significand < significandLimit ∧ shift ≤ greatestShift ∧
    (shift = 0 ∨ leadingBit ≤ significand)
deriving DecidableEq

namespace Magnitude

/-- The least positive magnitude is `1 / unitsPerOne`. -/
def unitsPerOne : Nat := twoTo 1074

/-- A magnitude counted in units of the least positive one. -/
def units (x : Magnitude) : Nat := x.significand * twoTo x.shift

/-- The magnitude of both zeros. -/
def zero : Magnitude := ⟨0, 0, by decide⟩

instance : Inhabited Magnitude := ⟨zero⟩

/-- A significand of at most 2^53 at some shift, as a magnitude: a significand that
    reached 2^53 moves up one shift, and a shift beyond 2045 overflows. -/
def ofParts? (significand shift : Nat) : Option Magnitude :=
  let m := if significand = significandLimit then leadingBit else significand
  let s := if significand = significandLimit then shift + 1 else shift
  if h : m < significandLimit ∧ s ≤ greatestShift ∧ (s = 0 ∨ leadingBit ≤ m) then
    some ⟨m, s, h⟩
  else none

end Magnitude

/-! ## Rounding -/

/-- The integer nearest to `num / den`, a half going to the even neighbour. -/
def roundHalfEven (num den : Nat) : Nat :=
  let quotient := num / den
  let remainder := num % den
  if 2 * remainder < den then quotient
  else if den < 2 * remainder then quotient + 1
  else quotient + quotient % 2

/-- The magnitude nearest to `num / den`, a half going to the even significand;
    `none` when the nearest one would not be finite. -/
def Magnitude.ofRatio? (num den : Nat) : Option Magnitude :=
  let scaled := num * unitsPerOne
  let shift := (scaled / den).log2 - 52
  ofParts? (roundHalfEven scaled (den * twoTo shift)) shift

/-! ## Numbers -/

/-- A binary64 number. The one value `nan` stands for every encoding of it. -/
inductive Binary64 where
  /-- Not a number. -/
  | nan
  /-- An infinity with its sign. -/
  | infinity (negative : Bool)
  /-- A finite number: sign and magnitude, so zero comes with both signs. -/
  | finite (negative : Bool) (magnitude : Magnitude)
deriving DecidableEq

namespace Binary64

instance : Inhabited Binary64 := ⟨.finite false .zero⟩

/-- Is the number neither an infinity nor `nan`? -/
def isFinite : Binary64 → Bool
  | finite _ _ => true
  | _ => false

/-- Is the number greater than zero? -/
def isPositive : Binary64 → Bool
  | nan => false
  | infinity negative => !negative
  | finite negative x => !negative && x.significand != 0

/-- Numeric equality: the two zeros are equal, and `nan` equals nothing. -/
def equal : Binary64 → Binary64 → Bool
  | nan, _ => false
  | _, nan => false
  | infinity a, infinity b => a == b
  | finite a x, finite b y => decide (x = y) && (a == b || x.significand == 0)
  | _, _ => false

/-- A sign and a rounded magnitude, `none` being one that overflowed. -/
def ofRounded (negative : Bool) : Option Magnitude → Binary64
  | some x => finite negative x
  | none => infinity negative

end Binary64

end ChipSettings.Number
