import ChipSettings.Proofs.Number.Spelling
import Mathlib.Data.Nat.Digits.Lemmas

/-! # How Integers Are Spelled

  An integer numeral is an optional sign and digits, at least one of them and as many as there
  may be.

  - `IntegerSpelling` is such a numeral, with its text and its value. The value has no bounds.
  - `IntegerSpelling.readInt32?_text`: a numeral is read as its value if that has 32 bits, and it
    is refused if it has not. `exists_of_readInt32?`: nothing else is read.
  - `DenotesInteger cs v`: the text is an integer numeral of the value. It has one value only.
  - `readInt32?_eq_some_iff` is all of this in one line.
-/

namespace ChipSettings.Number

/-! ## Digits by Their Places -/

/-- The value of one digit. -/
def digitValue (c : Char) : ℕ := c.toNat - '0'.toNat

/-- The value of digits by their places: the last digit counts the ones, the one in front of it
    the tens. -/
def placeValue (ds : List Char) : ℕ := Nat.ofDigits 10 (ds.map digitValue).reverse

/-- Reading digits one after the other gives each of them the value of its place. -/
theorem digitsValue_eq_placeValue (ds : List Char) : digitsValue ds = placeValue ds := by
  induction ds with
  | nil => rfl
  | cons c ds ih =>
    -- what is read behind the first digit multiplies it by ten, once for each digit
    have hfirst : digitsValue (c :: ds) = 10 ^ ds.length * digitValue c + digitsValue ds := by
      unfold digitsValue
      rw [Nat.ofDigitChars_cons, Nat.ofDigitChars_eq_ofDigitChars_zero, Nat.mul_zero, Nat.zero_add]
      rfl
    rw [hfirst, ih, placeValue, placeValue, List.map_cons, Nat.ofDigits_reverse_cons,
      List.length_map, Nat.add_comm]

/-! ## Integer Numerals -/

/-- An integer numeral, part by part. -/
structure IntegerSpelling where
  sign : SignMark
  digits : List Char
  someDigit : digits ≠ []
  allDigits : AllDigits digits

namespace IntegerSpelling

def text (s : IntegerSpelling) : List Char := s.sign.text ++ s.digits

/-- The value of the numeral, of whatever size. -/
def value (s : IntegerSpelling) : ℤ :=
  if s.sign.isMinus then -(placeValue s.digits : ℤ) else placeValue s.digits

theorem isDigits_digits (s : IntegerSpelling) : isDigits s.digits = true :=
  isDigits_iff.2 ⟨s.someDigit, s.allDigits⟩

theorem splitSign_text (s : IntegerSpelling) : splitSign s.text = (s.sign.isMinus, s.digits) :=
  s.sign.splitSign_digits s.isDigits_digits

/-- The digits are read first, and then they are given their sign. -/
theorem signed_digitsValue (s : IntegerSpelling) :
    signed s.sign.isMinus (digitsValue s.digits) = s.value := by
  rw [digitsValue_eq_placeValue]
  rfl

/-- A numeral is read as its value if it has 32 bits, and it is refused if it has not. -/
theorem readInt32?_text (s : IntegerSpelling) :
    readInt32? s.text =
      if -2 ^ 31 ≤ s.value ∧ s.value < 2 ^ 31 then some (Int32.ofInt s.value) else none := by
  have hrange : (-2147483648 ≤ s.value ∧ s.value ≤ 2147483647) ↔
      -2 ^ 31 ≤ s.value ∧ s.value < 2 ^ 31 := by omega
  unfold readInt32?
  simp only [s.splitSign_text, s.isDigits_digits, s.signed_digitsValue, hrange, if_true]

end IntegerSpelling

/-- Nothing but an integer numeral is read as an integer. -/
theorem exists_of_readInt32? {cs : List Char} {n : Int32} (h : readInt32? cs = some n) :
    ∃ s : IntegerSpelling, s.text = cs := by
  unfold readInt32? at h
  simp only at h
  split at h
  · next hdigits =>
    obtain ⟨hsome, hall⟩ := isDigits_iff.1 hdigits
    obtain ⟨sign, htext, -⟩ := SignMark.exists_splitSign cs
    exact ⟨⟨sign, (splitSign cs).2, hsome, hall⟩, htext⟩
  · cases h

/-! ## What a Text Denotes -/

/-- The text is an integer numeral of the value. -/
def DenotesInteger (cs : List Char) (v : ℤ) : Prop :=
  ∃ s : IntegerSpelling, s.text = cs ∧ s.value = v

/-- A text is a numeral of one value only. -/
theorem DenotesInteger.unique {cs : List Char} {v w : ℤ} (hv : DenotesInteger cs v)
    (hw : DenotesInteger cs w) : v = w := by
  obtain ⟨s, htext, rfl⟩ := hv
  obtain ⟨s', htext', rfl⟩ := hw
  have hsplit := s.splitSign_text
  rw [htext, ← htext', s'.splitSign_text] at hsplit
  injection hsplit with hsign hdigits
  rw [IntegerSpelling.value, IntegerSpelling.value, hsign, hdigits]

/-- A text is read as an integer if it is a numeral of that integer. -/
theorem readInt32?_eq_some_iff {cs : List Char} {n : Int32} :
    readInt32? cs = some n ↔ DenotesInteger cs n.toInt := by
  constructor
  · intro hread
    obtain ⟨s, rfl⟩ := exists_of_readInt32? hread
    refine ⟨s, rfl, ?_⟩
    rw [s.readInt32?_text] at hread
    split at hread
    · next hrange =>
      cases hread
      exact (Int32.toInt_ofInt_of_le hrange.1 hrange.2).symm
    · cases hread
  · rintro ⟨s, rfl, hvalue⟩
    rw [s.readInt32?_text, hvalue, if_pos ⟨n.le_toInt, n.toInt_lt⟩, Int32.ofInt_toInt]

/-- The values of 32 bits. -/
theorem exists_int32_iff {P : ℤ → Prop} :
    (∃ n : Int32, P n.toInt) ↔ ∃ v, P v ∧ -2 ^ 31 ≤ v ∧ v < 2 ^ 31 := by
  constructor
  · rintro ⟨n, hn⟩
    exact ⟨n.toInt, hn, n.le_toInt, n.toInt_lt⟩
  · rintro ⟨v, hv, hlow, hhigh⟩
    refine ⟨Int32.ofInt v, ?_⟩
    rwa [Int32.toInt_ofInt_of_le hlow hhigh]

end ChipSettings.Number
