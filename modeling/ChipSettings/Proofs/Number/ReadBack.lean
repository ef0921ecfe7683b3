import ChipSettings.Number.Numeral
import ChipSettings.Proofs.Number.Rounding
import Mathlib.Data.List.TakeDrop
import Mathlib.Data.List.TakeWhile

/-! # Numbers Read Back From Their Texts

  Every number is read back from the text it is written as: integers, both zeros,
  subnormal numbers, infinities and the value that is not a number.

  - The shortest decimal of a magnitude rounds to it: each candidate of the search was
    checked, and the exact expansion at the end of the search is the magnitude.
  - Positional spelling moves the point and drops zeros, which keeps the value. The
    decimal that is read may have other digits and another exponent, but it rounds alike.
  - `isNumberChar` are the characters of such texts: none is blank, none is markup, none
    belongs to a line end.
-/

namespace ChipSettings.Number

/-! ## The Shortest Decimal Rounds Back -/

namespace Magnitude

/-- A candidate of the search reads back. -/
theorem toMagnitude?_of_neighbour? {x : Magnitude} {e : Int} {d : Decimal}
    (h : x.neighbour? e = some d) : d.toMagnitude? = some x := by
  have hback {d : Decimal} (hd : x.readsBack d = true) : d.toMagnitude? = some x := by
    simpa [readsBack] using hd
  -- whichever of the two neighbours is taken, it was checked
  unfold neighbour? at h
  simp only at h
  split at h
  · next hlower hupper =>
    simp only [Option.some.injEq] at h
    split at h
    · exact h ▸ hback hlower
    · exact h ▸ hback hupper
  · next hlower _ =>
    simp only [Option.some.injEq] at h
    exact h ▸ hback hlower
  · next _ hupper =>
    simp only [Option.some.injEq] at h
    exact h ▸ hback hupper
  · simp at h

/-- Units stay below the limit set by a bound on the shift. -/
theorem units_lt (x : Magnitude) {s : Nat} (hs : x.shift ≤ s) :
    x.units < significandLimit * twoTo s := by
  have hshift : twoTo x.shift ≤ twoTo s := Nat.pow_le_pow_right (by decide) hs
  unfold units
  calc x.significand * twoTo x.shift
      ≤ x.significand * twoTo s := Nat.mul_le_mul_left _ hshift
    _ < significandLimit * twoTo s := Nat.mul_lt_mul_of_pos_right x.canonical.1 (twoTo_pos s)

theorem units_pos {x : Magnitude} (hx : x.significand ≠ 0) : 0 < x.units :=
  Nat.mul_pos (Nat.pos_of_ne_zero hx) (twoTo_pos _)

/-- The order of an exact expansion lies in the range in which decimals are rounded. -/
theorem order_exactDecimal {x : Magnitude} (hx : x.significand ≠ 0) :
    Decimal.leastOrder ≤ x.exactDecimal.order ∧ x.exactDecimal.order ≤ Decimal.greatestOrder := by
  -- two comparisons of powers bound the number of digits from both sides
  have hlow : 744 < digitCount (x.units * fiveTo 1074) := by
    apply lt_digitCount
    calc tenTo 744 ≤ fiveTo 1074 := by decide +kernel
      _ ≤ x.units * fiveTo 1074 := Nat.le_mul_of_pos_left _ (units_pos hx)
  have hhigh : digitCount (x.units * fiveTo 1074) ≤ 1384 := by
    apply digitCount_le (by decide)
    calc x.units * fiveTo 1074
        ≤ significandLimit * twoTo greatestShift * fiveTo 1074 :=
          Nat.mul_le_mul_right _ (Nat.le_of_lt (x.units_lt x.canonical.2.1))
      _ < tenTo 1384 := by decide +kernel
  show (-330 : Int) ≤ digitCount (x.units * fiveTo 1074) + (-1074) ∧
    (digitCount (x.units * fiveTo 1074) : Int) + (-1074) ≤ 310
  omega

/-- The exact expansion of a magnitude rounds to it. -/
theorem toMagnitude?_exactDecimal {x : Magnitude} (hx : x.significand ≠ 0) :
    x.exactDecimal.toMagnitude? = some x := by
  obtain ⟨hleast, hgreatest⟩ := order_exactDecimal hx
  have hdigits : x.exactDecimal.digits ≠ 0 :=
    Nat.ne_of_gt (Nat.mul_pos (units_pos hx) (fiveTo_pos 1074))
  unfold Decimal.toMagnitude?
  rw [if_neg hdigits, if_neg (Int.not_lt.2 hgreatest), if_neg (Int.not_lt.2 hleast)]
  show ofRatio? (x.units * fiveTo 1074) (tenTo 1074) = some x
  apply ofRatio?_of_eq_units (tenTo_pos 1074)
  rw [tenTo_eq_fiveTo_mul_twoTo, unitsPerOne, Nat.mul_assoc]

/-- The shortest decimal of a magnitude rounds to it. -/
theorem toMagnitude?_shortest (x : Magnitude) : x.shortest.toMagnitude? = some x := by
  unfold shortest
  by_cases hx : x.significand = 0
  · -- without a significand there is no shift
    rw [if_pos hx]
    show some zero = some x
    have hshift : x.shift = 0 := x.canonical.2.2.resolve_right (by rw [hx]; decide)
    cases x
    cases hx
    cases hshift
    rfl
  · rw [if_neg hx]
    simp only
    cases hfound : (List.range mostDigits).findSome? fun (n : Nat) =>
        x.neighbour? (x.order - (n + 1)) with
    | none =>
      -- nothing shorter was found
      exact toMagnitude?_exactDecimal hx
    | some d =>
      obtain ⟨n, -, hn⟩ := List.exists_of_findSome?_eq_some hfound
      exact toMagnitude?_of_neighbour? hn

end Magnitude

/-! ## Digits and Their Value -/

/-- All characters are decimal digits. -/
def AllDigits (cs : List Char) : Prop := ∀ c ∈ cs, c.isDigit = true

theorem allDigits_toDigits (n : Nat) : AllDigits (Nat.toDigits 10 n) :=
  fun _ hc => Nat.isDigit_of_mem_toDigits (by decide) (by decide) hc

theorem AllDigits.append {as bs : List Char} (ha : AllDigits as) (hb : AllDigits bs) :
    AllDigits (as ++ bs) := by
  intro c hc
  rcases List.mem_append.1 hc with h | h
  · exact ha c h
  · exact hb c h

theorem allDigits_zeros (k : Nat) : AllDigits (List.replicate k '0') := by
  intro c hc
  rw [List.eq_of_mem_replicate hc]
  decide

@[simp] theorem digitsValue_toDigits (n : Nat) : digitsValue (Nat.toDigits 10 n) = n :=
  Nat.ofDigitChars_ten_toDigits

/-- Zeros at the left end do not count. -/
theorem digitsValue_zeros_append (k : Nat) (ds : List Char) :
    digitsValue (List.replicate k '0' ++ ds) = digitsValue ds := by
  unfold digitsValue
  rw [Nat.ofDigitChars_append, Nat.ofDigitChars_replicate_zero, Nat.mul_zero]

/-- Zeros at the right end are powers of ten. -/
theorem digitsValue_append_zeros (ds : List Char) (k : Nat) :
    digitsValue (ds ++ List.replicate k '0') = digitsValue ds * tenTo k := by
  unfold digitsValue
  rw [Nat.ofDigitChars_append, Nat.ofDigitChars_replicate_zero, Nat.mul_comm]
  rfl

/-- A list of digits is read up to what follows it. -/
theorem span_isDigit {ds rest : List Char} (hds : AllDigits ds)
    (hrest : ∀ c ∈ rest.head?, c.isDigit = false) :
    (ds ++ rest).span Char.isDigit = (ds, rest) := by
  rw [List.span_eq_takeWhile_dropWhile, List.takeWhile_append_of_pos hds,
    List.dropWhile_append_of_pos hds]
  cases rest with
  | nil => simp
  | cons c rest => simp [hrest c rfl]

/-! ## Positional Spelling -/

namespace Decimal

/-- Trailing zeros that were dropped can be put back. -/
theorem exists_dropTrailingZeros_append (cs : List Char) :
    ∃ k, cs = dropTrailingZeros cs ++ List.replicate k '0' := by
  refine ⟨(cs.reverse.takeWhile (· == '0')).length, ?_⟩
  have hzeros : cs.reverse.takeWhile (· == '0') =
      List.replicate (cs.reverse.takeWhile (· == '0')).length '0' := by
    apply List.eq_replicate_of_mem
    intro c hc
    simpa using List.mem_takeWhile_imp hc
  have hsplit := List.takeWhile_append_dropWhile (p := (· == '0')) (l := cs.reverse)
  rw [← List.reverse_replicate, ← hzeros, dropTrailingZeros, ← List.reverse_append, hsplit,
    List.reverse_reverse]

theorem length_le_paddedDigits (width n : Nat) : width ≤ (paddedDigits width n).length := by
  simp only [paddedDigits, List.length_append, List.length_replicate]
  omega

/-- The spelling of a decimal consists of an integral part and a fraction, and the decimal
    they denote rounds as the decimal that is spelled. -/
theorem exists_positional_eq (d : Decimal) :
    ∃ whole fraction, d.positional = withFraction whole fraction ∧ whole ≠ [] ∧
      AllDigits whole ∧ AllDigits fraction ∧
      toMagnitude? ⟨digitsValue (whole ++ fraction), -fraction.length⟩ = d.toMagnitude? := by
  obtain ⟨n, e⟩ := d
  cases e with
  | ofNat e =>
    refine ⟨Nat.toDigits 10 (n * tenTo e), [], rfl, Nat.toDigits_ne_nil, allDigits_toDigits _,
      by simp [AllDigits], ?_⟩
    rw [List.append_nil, digitsValue_toDigits]
    show toMagnitude? ⟨n * tenTo e, 0⟩ = toMagnitude? ⟨n, Int.ofNat e⟩
    rw [toMagnitude?_shift, Int.zero_add]
    rfl
  | negSucc e =>
    -- the padded digits are the integral part, the fraction and the zeros that are dropped
    have hdigits : AllDigits (paddedDigits (e + 2) n) :=
      (allDigits_zeros _).append (allDigits_toDigits n)
    have hvalue : digitsValue (paddedDigits (e + 2) n) = n := by
      unfold paddedDigits
      rw [digitsValue_zeros_append, digitsValue_toDigits]
    have hlength := length_le_paddedDigits (e + 2) n
    generalize hds : paddedDigits (e + 2) n = ds at hdigits hvalue hlength
    obtain ⟨k, hk⟩ := exists_dropTrailingZeros_append (ds.drop (ds.length - (e + 1)))
    generalize hfraction : dropTrailingZeros (ds.drop (ds.length - (e + 1))) = fraction at hk
    have hcount : fraction.length + k = e + 1 := by
      have := congrArg List.length hk
      rw [List.length_drop, List.length_append, List.length_replicate] at this
      omega
    have hall : ds.take (ds.length - (e + 1)) ++ fraction ++ List.replicate k '0' = ds := by
      rw [List.append_assoc, ← hk, List.take_append_drop]
    refine ⟨ds.take (ds.length - (e + 1)), fraction, ?_, ?_, ?_, ?_, ?_⟩
    · simp only [positional, hds, hfraction]
    · have hpos : 0 < (ds.take (ds.length - (e + 1))).length := by
        rw [List.length_take]
        omega
      exact List.ne_nil_of_length_pos hpos
    · intro c hc
      exact hdigits c (List.mem_of_mem_take hc)
    · intro c hc
      apply hdigits c
      rw [← hall]
      exact List.mem_append_left _ (List.mem_append_right _ hc)
    · -- the zeros that were dropped go into the exponent
      generalize ds.take (ds.length - (e + 1)) ++ fraction = shown at hall
      have hn : n = digitsValue shown * tenTo k := by
        rw [← digitsValue_append_zeros, hall, hvalue]
      rw [hn, toMagnitude?_shift]
      congr 2
      rw [Int.negSucc_eq]
      omega

end Decimal

/-! ## Reading a Spelled Decimal -/

namespace Numeral

/-- An integral part and a fraction are read as the decimal they denote. -/
theorem readDecimal?_withFraction {whole fraction : List Char} (hne : whole ≠ [])
    (hwhole : AllDigits whole) (hfraction : AllDigits fraction) :
    readDecimal? (Decimal.withFraction whole fraction) =
      some ⟨digitsValue (whole ++ fraction), -fraction.length⟩ := by
  have hempty : whole.isEmpty = false := by
    cases whole with
    | nil => exact absurd rfl hne
    | cons c whole => rfl
  cases fraction with
  | nil =>
    have hspan : (whole ++ []).span Char.isDigit = (whole, []) := span_isDigit hwhole (by simp)
    rw [List.append_nil] at hspan
    simp only [readDecimal?, Decimal.withFraction, hspan, splitFraction, hempty, readExponent?,
      List.append_nil]
    rfl
  | cons c fraction =>
    have hspan : (whole ++ '.' :: c :: fraction).span Char.isDigit = (whole, '.' :: c :: fraction) :=
      span_isDigit hwhole (by simp)
    have hspan' : (c :: fraction ++ []).span Char.isDigit = (c :: fraction, []) :=
      span_isDigit hfraction (by simp)
    rw [List.append_nil] at hspan'
    simp only [readDecimal?, Decimal.withFraction, hspan, splitFraction, hspan', hempty,
      readExponent?, Bool.false_and, Option.map_some, Int.zero_sub]
    rfl

/-- The spelling of a decimal starts with a digit. -/
theorem exists_positional_eq_cons (d : Decimal) :
    ∃ c cs, d.positional = c :: cs ∧ c.isDigit = true := by
  obtain ⟨whole, fraction, htext, hne, hwhole, -, -⟩ := d.exists_positional_eq
  obtain ⟨c, whole, rfl⟩ := List.exists_cons_of_ne_nil hne
  have hc : c.isDigit = true := hwhole c List.mem_cons_self
  cases fraction with
  | nil => exact ⟨c, whole, htext, hc⟩
  | cons f fraction => exact ⟨c, whole ++ '.' :: f :: fraction, htext, hc⟩

/-- The spelling of a decimal is read as a decimal that rounds as it does. -/
theorem exists_readDecimal?_positional (d : Decimal) :
    ∃ d', readDecimal? d.positional = some d' ∧ d'.toMagnitude? = d.toMagnitude? := by
  obtain ⟨whole, fraction, htext, hne, hwhole, hfraction, hround⟩ := d.exists_positional_eq
  exact ⟨_, by rw [htext, readDecimal?_withFraction hne hwhole hfraction], hround⟩

/-- A character that a decimal numeral starts with, behind its sign. -/
def StartsDecimal (c : Char) : Prop := c.isDigit = true ∨ c = '.'

theorem StartsDecimal.ne {c d : Char} (hc : StartsDecimal c) (hd : d.isDigit = false)
    (hpoint : d ≠ '.') : c ≠ d := by
  rintro rfl
  rcases hc with hdigit | hdot
  · rw [hd] at hdigit
    cases hdigit
  · exact hpoint hdot

theorem StartsDecimal.toLower_eq {c : Char} (hc : StartsDecimal c) : c.toLower = c := by
  unfold Char.toLower
  refine dif_neg fun hupper => ?_
  have hletter : 65 ≤ c.toNat := hupper.1
  rcases hc with hdigit | rfl
  · have hrange : 48 ≤ c.toNat ∧ c.toNat ≤ 57 := by
      simpa [Char.isDigit, UInt32.le_iff_toNat_le] using hdigit
    omega
  · exact absurd hletter (by decide)

/-- Behind its sign, text that starts with a digit or a point spells no word. -/
theorem read?_of_splitSign {cs body : List Char} {c : Char} {negative : Bool}
    (hsign : splitSign cs = (negative, c :: body)) (hc : StartsDecimal c) :
    read? cs = (readDecimal? (c :: body)).map (.decimal negative) := by
  -- words are told from numerals by their first letter, in either case
  have hword {d : Char} {ds : List Char} (hd : d.isDigit = false) (hpoint : d ≠ '.') :
      (c :: body).map Char.toLower ≠ d :: ds := by
    intro h
    rw [List.map_cons, hc.toLower_eq] at h
    exact hc.ne hd hpoint (List.cons.inj h).1
  unfold read?
  rw [hsign]
  simp only
  rw [if_neg (hword (by decide) (by decide)), if_neg]
  rintro (h | h)
  · exact hword (by decide) (by decide) h
  · exact hword (by decide) (by decide) h

/-- Text that starts with a digit has no sign, and spells no word. -/
theorem read?_of_head_isDigit {c : Char} (hc : c.isDigit = true) (cs : List Char)
    (negative : Bool) :
    read? (Binary64.signText negative ++ c :: cs) =
      (readDecimal? (c :: cs)).map (.decimal negative) := by
  have hstart : StartsDecimal c := .inl hc
  refine read?_of_splitSign ?_ hstart
  cases negative with
  | true => rfl
  | false =>
    show splitSign (c :: cs) = (false, c :: cs)
    unfold splitSign
    split
    · next h => exact absurd (List.cons.inj h).1 (hstart.ne (by decide) (by decide))
    · next h => exact absurd (List.cons.inj h).1 (hstart.ne (by decide) (by decide))
    · rfl

end Numeral

namespace Binary64

/-- **Reals read back**: every real is read from the text it is written as, with its sign,
    whether finite or not. -/
theorem read?_text (x : Binary64) : read? x.text = some x := by
  cases x with
  | nan => rfl
  | infinity negative => cases negative <;> rfl
  | finite negative x =>
    obtain ⟨d, hd, hround⟩ := Numeral.exists_readDecimal?_positional x.shortest
    obtain ⟨c, cs, hcs, hc⟩ := Numeral.exists_positional_eq_cons x.shortest
    have hread : Numeral.read? (signText negative ++ x.shortest.positional) =
        some (.decimal negative d) := by
      rw [hcs, Numeral.read?_of_head_isDigit hc, ← hcs, hd]
      rfl
    have hmagnitude : d.toMagnitude? = some x := hround.trans x.toMagnitude?_shortest
    show (Numeral.read? (signText negative ++ x.shortest.positional)).map Numeral.toBinary64 = _
    rw [hread, Option.map_some, Numeral.toBinary64, hmagnitude]
    rfl

end Binary64

/-! ## Integers Read Back -/

theorem isDigits_toDigits (n : Nat) : isDigits (Nat.toDigits 10 n) = true := by
  have hempty : (Nat.toDigits 10 n).isEmpty = false := by simp
  have hall : (Nat.toDigits 10 n).all Char.isDigit = true :=
    List.all_eq_true.2 (allDigits_toDigits n)
  rw [isDigits, hempty, hall]
  rfl

/-- The text of an integer splits into its sign and the digits of its absolute value. -/
theorem splitSign_intText (n : Int) :
    splitSign (intText n) = (decide (n < 0), Nat.toDigits 10 n.natAbs) := by
  cases n with
  | ofNat n =>
    obtain ⟨c, cs, hcs⟩ := List.exists_cons_of_ne_nil (Nat.toDigits_ne_nil (b := 10) (n := n))
    have hc : c.isDigit = true := allDigits_toDigits n c (by rw [hcs]; exact List.mem_cons_self)
    show splitSign (Nat.toDigits 10 n) = (false, Nat.toDigits 10 n)
    rw [hcs]
    unfold splitSign
    split
    · next h => rw [(List.cons.inj h).1] at hc; exact absurd hc (by decide)
    · next h => rw [(List.cons.inj h).1] at hc; exact absurd hc (by decide)
    · rfl
  | negSucc n =>
    rw [decide_eq_true (Int.negSucc_lt_zero n)]
    rfl

/-- **Integers read back**: every 32-bit integer is read from the text it is written as. -/
theorem readInt32?_intText (n : Int32) : readInt32? (intText n.toInt) = some n := by
  have hlow : -2147483648 ≤ n.toInt := Int32.le_toInt n
  have hhigh : n.toInt ≤ 2147483647 := Int32.toInt_le n
  have hsigned : signed (decide (n.toInt < 0)) n.toInt.natAbs = n.toInt := by
    unfold signed
    by_cases hn : n.toInt < 0
    · rw [if_pos (decide_eq_true hn)]
      omega
    · rw [if_neg (by simpa using hn)]
      omega
  unfold readInt32?
  rw [splitSign_intText]
  simp only [isDigits_toDigits, digitsValue_toDigits, hsigned, if_true]
  rw [if_pos ⟨hlow, hhigh⟩, Int32.ofInt_toInt]

/-! ## The Characters of Number Texts -/

/-- The characters that texts of numbers consist of. -/
def isNumberChar (c : Char) : Bool :=
  c.isDigit || c == '-' || c == '.' || c == 'N' || c == 'a' || c == 'i' || c == 'n' || c == 'f'

theorem isNumberChar_of_isDigit {c : Char} (h : c.isDigit = true) : isNumberChar c = true := by
  simp [isNumberChar, h]

/-- Every text of a real consists of number characters. -/
theorem isNumberChar_of_mem_text {x : Binary64} {c : Char} (hc : c ∈ x.text) :
    isNumberChar c = true := by
  have hsign {negative : Bool} (h : c ∈ Binary64.signText negative) : isNumberChar c = true := by
    cases negative with
    | true => obtain rfl : c = '-' := by simpa [Binary64.signText] using h
              decide
    | false => simp [Binary64.signText] at h
  cases x with
  | nan =>
    have hword : ['N', 'a', 'N'].all isNumberChar = true := by decide
    exact List.all_eq_true.1 hword c hc
  | infinity negative =>
    rcases List.mem_append.1 hc with h | h
    · exact hsign h
    · have hword : ['i', 'n', 'f'].all isNumberChar = true := by decide
      exact List.all_eq_true.1 hword c h
  | finite negative x =>
    rcases List.mem_append.1 hc with h | h
    · exact hsign h
    · obtain ⟨whole, fraction, htext, -, hwhole, hfraction, -⟩ := x.shortest.exists_positional_eq
      rw [htext] at h
      cases fraction with
      | nil => exact isNumberChar_of_isDigit (hwhole c h)
      | cons f fraction =>
        rcases List.mem_append.1 h with h | h
        · exact isNumberChar_of_isDigit (hwhole c h)
        · rcases List.mem_cons.1 h with rfl | h
          · decide
          · exact isNumberChar_of_isDigit (hfraction c h)

/-- Every text of an integer consists of number characters. -/
theorem isNumberChar_of_mem_intText {n : Int} {c : Char} (hc : c ∈ intText n) :
    isNumberChar c = true := by
  cases n with
  | ofNat n => exact isNumberChar_of_isDigit (allDigits_toDigits n c hc)
  | negSucc n =>
    rcases List.mem_cons.1 hc with rfl | h
    · decide
    · exact isNumberChar_of_isDigit (allDigits_toDigits _ c h)

end ChipSettings.Number
