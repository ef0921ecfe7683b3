import ChipSettings.Number.Shortest

/-! # Number Texts

  How numbers are read from text and written as text.

  - Integers are an optional sign and decimal digits, within 32 bits.
  - Reals are an optional sign and either decimal digits with at most one point and
    an optional exponent, or one of the words `inf`, `infinity` and `nan`.
  - Reading a numeral rounds its exact value once; writing picks the shortest
    decimal that reads back, in positional notation.

  Nothing here trims blanks: a caller that allows them drops them first.
-/

namespace ChipSettings.Number

/-! ## Pieces of a Numeral -/

/-- Split off one leading sign: whether it is a minus, and what follows. -/
def splitSign : List Char → Bool × List Char
  | '-' :: cs => (true, cs)
  | '+' :: cs => (false, cs)
  | cs => (false, cs)

/-- The integer spelled by decimal digits. -/
def digitsValue (ds : List Char) : Nat := Nat.ofDigitChars 10 ds 0

/-- Decimal digits, at least one, and nothing else. -/
def isDigits (cs : List Char) : Bool := !cs.isEmpty && cs.all Char.isDigit

/-- A signed natural number. -/
def signed (negative : Bool) (n : Nat) : Int := if negative then -(n : Int) else n

/-! ## Integers -/

/-- Read a 32-bit integer: an optional sign and digits, in range. -/
def readInt32? (cs : List Char) : Option Int32 :=
  let (negative, ds) := splitSign cs
  if isDigits ds then
    let n := signed negative (digitsValue ds)
    if -2147483648 ≤ n ∧ n ≤ 2147483647 then some (Int32.ofInt n) else none
  else none

/-- Decimal digits of an integer, after a minus if it is negative. -/
def intText (n : Int) : List Char :=
  match n with
  | .ofNat n => Nat.toDigits 10 n
  | .negSucc n => '-' :: Nat.toDigits 10 (n + 1)

/-! ## Reals -/

/-- What a real text denotes before rounding. -/
inductive Numeral where
  /-- The word for a value that is not a number. -/
  | nan
  /-- The word for an infinity, with its sign. -/
  | infinity (negative : Bool)
  /-- Digits: a sign and an exact decimal. -/
  | decimal (negative : Bool) (value : Decimal)
deriving DecidableEq

namespace Numeral

/-- Read an exponent: nothing, or `e` and a signed integer. -/
def readExponent? : List Char → Option Int
  | [] => some 0
  | c :: cs =>
    if c == 'e' || c == 'E' then
      let (negative, ds) := splitSign cs
      if isDigits ds then some (signed negative (digitsValue ds)) else none
    else none

/-- Split off a fraction: the digits after a leading point, and what follows them. -/
def splitFraction : List Char → List Char × List Char
  | '.' :: cs => cs.span Char.isDigit
  | cs => ([], cs)

/-- Read digits with at most one point and at least one digit, and an optional
    exponent, as an exact decimal. -/
def readDecimal? (cs : List Char) : Option Decimal :=
  let (whole, rest) := cs.span Char.isDigit
  let (fraction, rest) := splitFraction rest
  if whole.isEmpty && fraction.isEmpty then none
  else (readExponent? rest).map fun e =>
    ⟨digitsValue (whole ++ fraction), e - fraction.length⟩

/-- Read a real text; letters of words and exponents count in either case. -/
def read? (cs : List Char) : Option Numeral :=
  let (negative, body) := splitSign cs
  let word := body.map Char.toLower
  if word = ['n', 'a', 'n'] then some .nan
  else if word = ['i', 'n', 'f'] ∨ word = ['i', 'n', 'f', 'i', 'n', 'i', 't', 'y'] then
    some (.infinity negative)
  else (readDecimal? body).map (.decimal negative)

/-- The number a numeral rounds to. -/
def toBinary64 : Numeral → Binary64
  | nan => .nan
  | infinity negative => .infinity negative
  | decimal negative value => .ofRounded negative value.toMagnitude?

end Numeral

namespace Binary64

/-- Read a real text as the nearest number. -/
def read? (cs : List Char) : Option Binary64 :=
  (Numeral.read? cs).map Numeral.toBinary64

/-- A minus for negative values, zero included. -/
def signText (negative : Bool) : List Char := if negative then ['-'] else []

/-- The text of a number: the shortest decimal that reads back, or a word. -/
def text : Binary64 → List Char
  | nan => ['N', 'a', 'N']
  | infinity negative => signText negative ++ ['i', 'n', 'f']
  | finite negative x => signText negative ++ x.shortest.positional

end Binary64

end ChipSettings.Number
