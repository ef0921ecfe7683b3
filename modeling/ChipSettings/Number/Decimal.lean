import ChipSettings.Number.Binary64

/-! # Decimals

  A `Decimal` is the exact value `digits * 10 ^ exponent`: what a numeral denotes
  before it is rounded, and what a printed number spells.

  - `toMagnitude?` rounds a decimal correctly. A decimal far outside the binary64
    range is decided from its number of digits alone, so that an enormous
    exponent costs nothing.
  - `positional` spells a decimal with no exponent and no trailing zeros after
    the point.
-/

namespace ChipSettings.Number

/-- The exact value `digits * 10 ^ exponent`. -/
structure Decimal where
  /-- All digits, as an integer. -/
  digits : Nat
  /-- Power of ten of the last digit. -/
  exponent : Int
deriving DecidableEq, Inhabited

/-- How many decimal digits a positive integer has. -/
def digitCount (n : Nat) : Nat := (Nat.toDigits 10 n).length

namespace Decimal

/-! ## Rounding to Binary64 -/

/-- The power of ten just above the value: a decimal other than zero lies in
    `[10 ^ (order - 1), 10 ^ order)`. -/
def order (d : Decimal) : Int := digitCount d.digits + d.exponent

/-- Decimals of a greater order than this exceed every finite magnitude. -/
def greatestOrder : Int := 310

/-- Decimals of a smaller order than this are nearer to zero than to any other
    magnitude. -/
def leastOrder : Int := -330

/-- The nearest magnitude, a half going to the even significand; `none` when the
    value overflows. -/
def toMagnitude? (d : Decimal) : Option Magnitude :=
  if d.digits = 0 then some .zero
  else if greatestOrder < d.order then none
  else if d.order < leastOrder then some .zero
  else match d.exponent with
    | .ofNat e => Magnitude.ofRatio? (d.digits * tenTo e) 1
    | .negSucc e => Magnitude.ofRatio? d.digits (tenTo (e + 1))

/-! ## Positional Spelling -/

/-- Digits of a number, padded with zeros on the left to at least `width`. -/
def paddedDigits (width n : Nat) : List Char :=
  let ds := Nat.toDigits 10 n
  List.replicate (width - ds.length) '0' ++ ds

/-- Drop the zeros at the right end. -/
def dropTrailingZeros (cs : List Char) : List Char :=
  (cs.reverse.dropWhile (· == '0')).reverse

/-- An integral part and a fraction; no point when the fraction is empty. -/
def withFraction (whole fraction : List Char) : List Char :=
  match fraction with
  | [] => whole
  | _ => whole ++ '.' :: fraction

/-- The decimal in positional notation, without an exponent. -/
def positional (d : Decimal) : List Char :=
  match d.exponent with
  | .ofNat e => Nat.toDigits 10 (d.digits * tenTo e)
  | .negSucc e =>
    let ds := paddedDigits (e + 2) d.digits
    let whole := ds.length - (e + 1)
    withFraction (ds.take whole) (dropTrailingZeros (ds.drop whole))

end Decimal

end ChipSettings.Number
