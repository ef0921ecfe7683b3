import ChipSettings.Xml.Error

/-! # References and Line Ends

  What the pieces of a text stand for:

  - `resolve` gives the characters of a reference: one of the five predefined
    entities, or a character by its decimal or hexadecimal number.
  - `normalizeLineEnds` turns every line end into a line feed. It applies to each
    piece of text on its own, and never to what a reference stands for.
-/

namespace ChipSettings.Xml

/-! ## Character References -/

/-- Value of a digit in a base up to sixteen, letters in either case. -/
def digitValue? (base : Nat) (c : Char) : Option Nat :=
  let n := c.toNat
  let value? :=
    if 48 ≤ n ∧ n ≤ 57 then some (n - 48)
    else if 97 ≤ n ∧ n ≤ 102 then some (n - 87)
    else if 65 ≤ n ∧ n ≤ 70 then some (n - 55)
    else none
  value?.filter (· < base)

/-- Read the digits of a number below 2^32, continuing from `value`. The first digit
    that is none, or that makes the number too large, is the error. -/
def readDigits (base value : Nat) : List Char → Except ReferenceFault Nat
  | [] => .ok value
  | c :: cs =>
    match digitValue? base c with
    | none => .error .badDigit
    | some d =>
      let next := value * base + d
      if next < 0x100000000 then readDigits base next cs else .error .tooLarge

/-- Read an unsigned number. -/
def readUnsigned (base : Nat) (cs : List Char) : Except ReferenceFault Nat :=
  match cs with
  | [] => .error .empty
  | '+' :: _ => .error .signed
  | '-' :: _ => .error .signed
  | _ => readDigits base 0 cs

/-- Is the number a Unicode scalar value? -/
def isScalarValue (n : Nat) : Bool := n < 0xD800 || (0xDFFF < n && n < 0x110000)

/-- The character with a number. -/
def characterOf (n : Nat) : Except ReferenceFault Char :=
  if n = 0 then .error .null
  else if isScalarValue n then .ok (Char.ofNat n)
  else .error (.notACodePoint n)

/-- The character of a character reference, from behind its number sign. -/
def readCharacter (cs : List Char) : Except ReferenceFault Char := do
  let n ← match cs with
    | 'x' :: hex => readUnsigned 16 hex
    | _ => readUnsigned 10 cs
  characterOf n

/-! ## Entities -/

/-- The five predefined entities. -/
def entity? (name : List Char) : Option Char :=
  match name with
  | ['l', 't'] => some '<'
  | ['g', 't'] => some '>'
  | ['a', 'm', 'p'] => some '&'
  | ['a', 'p', 'o', 's'] => some '\''
  | ['q', 'u', 'o', 't'] => some '"'
  | _ => none

/-- The character a reference stands for. -/
def resolve (name : List Char) : Except XmlError Char :=
  match name with
  | '#' :: number => (readCharacter number).mapError .badCharacterReference
  | _ => match entity? name with
    | some c => .ok c
    | none => .error (.unknownEntity name)

/-! ## Line Ends -/

/-- Turn every line end (carriage return with or without line feed or next line,
    next line, line separator) into one line feed. -/
def normalizeLineEnds : List Char → List Char
  | '\r' :: '\n' :: cs => '\n' :: normalizeLineEnds cs
  | '\r' :: '\u0085' :: cs => '\n' :: normalizeLineEnds cs
  | '\r' :: cs => '\n' :: normalizeLineEnds cs
  | '\u0085' :: cs => '\n' :: normalizeLineEnds cs
  | '\u2028' :: cs => '\n' :: normalizeLineEnds cs
  | c :: cs => c :: normalizeLineEnds cs
  | [] => []

/-- A character that a line end consists of, other than the line feed. -/
def isForeignLineEnd (c : Char) : Bool := c == '\r' || c == '\u0085' || c == '\u2028'

/-- A text without foreign line ends is normal already. -/
theorem normalizeLineEnds_eq_self {cs : List Char} (h : ∀ c ∈ cs, isForeignLineEnd c = false) :
    normalizeLineEnds cs = cs := by
  fun_induction normalizeLineEnds cs <;> simp_all [isForeignLineEnd]

end ChipSettings.Xml
