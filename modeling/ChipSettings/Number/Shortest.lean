import ChipSettings.Number.Decimal

/-! # Shortest Decimals

  The decimal shown for a magnitude is the one with the fewest digits that reads
  back to it, and among those the nearest:

  - on the grid of `n` significant digits the two neighbours of the value are the
    only candidates worth trying, since every other point is farther away;
  - of two candidates that read back the nearer one is taken, the upper one when
    the value lies exactly between them;
  - the exact decimal expansion stands at the end of the search, so that what is
    shown reads back whatever the search does.
-/

namespace ChipSettings.Number.Magnitude

/-! ## Candidates on One Grid -/

/-- Does the decimal round to this magnitude? -/
def readsBack (x : Magnitude) (d : Decimal) : Bool :=
  d.toMagnitude? == some x

/-- The magnitude as a quotient, measured in steps of `10 ^ exponent`. -/
def inSteps (x : Magnitude) : (exponent : Int) → Nat × Nat
  | .ofNat e => (x.units, unitsPerOne * tenTo e)
  | .negSucc e => (x.units * tenTo (e + 1), unitsPerOne)

/-- The neighbour of the magnitude among the multiples of `10 ^ exponent` that reads
    back; the nearer one if both do, and the upper one halfway. -/
def neighbour? (x : Magnitude) (exponent : Int) : Option Decimal :=
  let (num, den) := x.inSteps exponent
  let lower : Decimal := ⟨num / den, exponent⟩
  let upper : Decimal := ⟨num / den + 1, exponent⟩
  match x.readsBack lower, x.readsBack upper with
  | true, true => some (if 2 * (num % den) < den then lower else upper)
  | true, false => some lower
  | false, true => some upper
  | false, false => none

/-! ## The Search -/

/-- The power of ten just above a positive magnitude: the value lies in
    `[10 ^ (order - 1), 10 ^ order)`. -/
def order (x : Magnitude) : Int :=
  digitCount (x.units * tenTo 400 / unitsPerOne) - 400

/-- The magnitude's whole decimal expansion. -/
def exactDecimal (x : Magnitude) : Decimal :=
  ⟨x.units * fiveTo 1074, -1074⟩

/-- Seventeen significant digits tell any two magnitudes apart. -/
def mostDigits : Nat := 17

/-- The decimal with the fewest digits that reads back, and the nearest of those. -/
def shortest (x : Magnitude) : Decimal :=
  if x.significand = 0 then ⟨0, 0⟩
  else
    let found := (List.range mostDigits).findSome? fun (n : Nat) =>
      x.neighbour? (x.order - (n + 1))
    found.getD x.exactDecimal

end ChipSettings.Number.Magnitude
