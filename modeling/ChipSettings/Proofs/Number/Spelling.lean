import ChipSettings.Proofs.Number.ReadBack
import ChipSettings.Proofs.Number.Thresholds
import Mathlib.Tactic.FieldSimp

/-! # How Decimal Numerals Are Spelled

  A decimal numeral is an optional sign, digits with at most one point among them or at their
  ends and at least one digit, and an optional exponent: the letter `e` or `E`, an optional sign
  and at least one digit.

  - `DecimalSpelling` is such a numeral, part by part, with its text and its exact value.
  - `DecimalSpelling.read?_text` and `exists_of_read?`: these numerals are read as the decimals
    that they spell, and nothing else is read as a decimal.
  - `Denotes cs v`: the text is a decimal numeral of the value. It has one value only.
  - `IsWord cs`: the text is a word for an infinity or for no number at all. These and the numerals
    that overflow are what is read as a value that is not finite (`read?_not_finite_iff`).
-/

namespace ChipSettings.Number

/-! ## Signs -/

/-- What may stand in front of digits. -/
inductive SignMark where
  | absent
  | plus
  | minus
deriving DecidableEq

namespace SignMark

/-- The text of a sign. -/
def text : SignMark → List Char
  | absent => []
  | plus => ['+']
  | minus => ['-']

/-- Does the sign make a number negative? -/
def isMinus : SignMark → Bool
  | minus => true
  | _ => false

/-- A sign is split off, if what follows does not start with another one. -/
theorem splitSign_text (sign : SignMark) {cs : List Char}
    (h : ∀ c ∈ cs.head?, c ≠ '-' ∧ c ≠ '+') :
    splitSign (sign.text ++ cs) = (sign.isMinus, cs) := by
  cases sign with
  | minus => rfl
  | plus => rfl
  | absent =>
    show splitSign cs = (false, cs)
    unfold splitSign
    split
    · exact absurd rfl (h '-' rfl).1
    · exact absurd rfl (h '+' rfl).2
    · rfl

/-- What is split off is a sign. -/
theorem exists_splitSign (cs : List Char) :
    ∃ sign : SignMark, sign.text ++ (splitSign cs).2 = cs ∧ sign.isMinus = (splitSign cs).1 := by
  unfold splitSign
  split
  · exact ⟨minus, rfl, rfl⟩
  · exact ⟨plus, rfl, rfl⟩
  · exact ⟨absent, rfl, rfl⟩

end SignMark

/-- What a decimal numeral starts with is no sign. -/
theorem Numeral.StartsDecimal.ne_sign {c : Char} (hc : StartsDecimal c) : c ≠ '-' ∧ c ≠ '+' :=
  ⟨hc.ne (by decide) (by decide), hc.ne (by decide) (by decide)⟩

theorem isDigits_iff {cs : List Char} : isDigits cs = true ↔ cs ≠ [] ∧ AllDigits cs := by
  rw [isDigits, Bool.and_eq_true, List.all_eq_true, Bool.not_eq_true', List.isEmpty_eq_false_iff]
  rfl

/-- A sign in front of digits is split off. -/
theorem SignMark.splitSign_digits (sign : SignMark) {ds : List Char} (h : isDigits ds = true) :
    splitSign (sign.text ++ ds) = (sign.isMinus, ds) := by
  refine sign.splitSign_text fun c hc => ?_
  have hdigit : c.isDigit = true := (isDigits_iff.1 h).2 c (List.mem_of_mem_head? hc)
  exact Numeral.StartsDecimal.ne_sign (.inl hdigit)

/-! ## Exponents -/

/-- A letter, an optional sign, and digits. -/
structure ExponentSpelling where
  letter : Char
  sign : SignMark
  digits : List Char
  isLetter : letter = 'e' ∨ letter = 'E'
  isDigits : isDigits digits = true

namespace ExponentSpelling

def text (e : ExponentSpelling) : List Char := e.letter :: (e.sign.text ++ e.digits)

/-- The power of ten that the exponent stands for. -/
def value (e : ExponentSpelling) : Int := signed e.sign.isMinus (digitsValue e.digits)

end ExponentSpelling

/-- The text of an exponent, if there is one. -/
def exponentText (exponent : Option ExponentSpelling) : List Char :=
  exponent.elim [] ExponentSpelling.text

/-- The power of ten that an exponent stands for, if there is one. -/
def exponentValue (exponent : Option ExponentSpelling) : Int :=
  exponent.elim 0 ExponentSpelling.value

namespace Numeral

/-- An exponent is read as the power that it stands for. -/
theorem readExponent?_text (exponent : Option ExponentSpelling) :
    readExponent? (exponentText exponent) = some (exponentValue exponent) := by
  cases exponent with
  | none => rfl
  | some e =>
    obtain ⟨letter, sign, digits, hletter, hdigits⟩ := e
    have hmark : (letter == 'e' || letter == 'E') = true := by simpa using hletter
    show readExponent? (letter :: (sign.text ++ digits)) = _
    simp only [readExponent?, hmark, sign.splitSign_digits hdigits, hdigits, if_true]
    rfl

/-- Nothing else is read as an exponent. -/
theorem exists_of_readExponent? {cs : List Char} {n : Int} (h : readExponent? cs = some n) :
    ∃ exponent, exponentText exponent = cs ∧ exponentValue exponent = n := by
  unfold readExponent? at h
  split at h
  · cases h
    exact ⟨none, rfl, rfl⟩
  · next letter cs =>
    split at h
    · next hletter =>
      simp only at h
      split at h
      · next hdigits =>
        obtain ⟨sign, htext, hminus⟩ := SignMark.exists_splitSign cs
        refine ⟨some ⟨letter, sign, (splitSign cs).2, by simpa using hletter, hdigits⟩, ?_, ?_⟩
        · show letter :: (sign.text ++ (splitSign cs).2) = letter :: cs
          rw [htext]
        · show signed sign.isMinus _ = n
          rw [hminus]
          exact Option.some.inj h
      · cases h
    · cases h

end Numeral

/-! ## Fractions -/

/-- A point and the digits behind it, if there is one. -/
def fractionText (fraction : Option (List Char)) : List Char :=
  fraction.elim [] ('.' :: ·)

/-- A letter of an exponent is no digit and no point. -/
theorem head_exponentText {exponent : Option ExponentSpelling} {c : Char}
    (hc : c ∈ (exponentText exponent).head?) : c.isDigit = false ∧ c ≠ '.' := by
  cases exponent with
  | none => cases hc
  | some e =>
    obtain rfl : e.letter = c := Option.some.inj hc
    rcases e.isLetter with h | h
    · rw [h]
      decide
    · rw [h]
      decide

/-- Nor is a point a digit. -/
theorem head_fractionText {fraction : Option (List Char)} {exponent : Option ExponentSpelling}
    {c : Char} (hc : c ∈ (fractionText fraction ++ exponentText exponent).head?) :
    c.isDigit = false := by
  cases fraction with
  | none => exact (head_exponentText hc).1
  | some ds =>
    obtain rfl : '.' = c := Option.some.inj hc
    rfl

namespace Numeral

/-- A fraction is split off, up to the exponent. -/
theorem splitFraction_text {fraction : Option (List Char)} (hdigits : AllDigits (fraction.getD []))
    (exponent : Option ExponentSpelling) :
    splitFraction (fractionText fraction ++ exponentText exponent) =
      (fraction.getD [], exponentText exponent) := by
  cases fraction with
  | none =>
    show splitFraction (exponentText exponent) = ([], exponentText exponent)
    unfold splitFraction
    split
    · next hpoint =>
      have hhead : '.' ∈ (exponentText exponent).head? := by
        rw [hpoint]
        rfl
      exact absurd rfl (head_exponentText hhead).2
    · rfl
  | some ds => exact span_isDigit hdigits fun c hc => (head_exponentText hc).1

/-- What is split off is a fraction. -/
theorem exists_splitFraction (cs : List Char) :
    ∃ fraction, fractionText fraction ++ (splitFraction cs).2 = cs ∧
      fraction.getD [] = (splitFraction cs).1 ∧ AllDigits (fraction.getD []) := by
  unfold splitFraction
  split
  · next cs =>
    rw [List.span_eq_takeWhile_dropWhile]
    refine ⟨some (cs.takeWhile Char.isDigit), ?_, rfl, fun c hc => List.mem_takeWhile_imp hc⟩
    exact congrArg _ List.takeWhile_append_dropWhile
  · exact ⟨none, rfl, rfl, fun c hc => absurd hc List.not_mem_nil⟩

end Numeral

/-! ## Decimal Numerals -/

/-- A decimal numeral, part by part. -/
structure DecimalSpelling where
  sign : SignMark
  /-- The digits in front of the point. -/
  whole : List Char
  /-- The digits behind the point, if there is a point. -/
  fraction : Option (List Char)
  exponent : Option ExponentSpelling
  wholeDigits : AllDigits whole
  fractionDigits : AllDigits (fraction.getD [])
  /-- There is a digit in front of the point or behind it. -/
  someDigit : whole ++ fraction.getD [] ≠ []

namespace DecimalSpelling

/-- The numeral without its sign. -/
def body (s : DecimalSpelling) : List Char :=
  s.whole ++ (fractionText s.fraction ++ exponentText s.exponent)

def text (s : DecimalSpelling) : List Char := s.sign.text ++ s.body

/-- The exact value of the numeral without its sign. -/
def magnitude (s : DecimalSpelling) : ℚ :=
  (digitsValue s.whole + digitsValue (s.fraction.getD []) / 10 ^ (s.fraction.getD []).length) *
    10 ^ exponentValue s.exponent

/-- The exact value of the numeral. -/
def value (s : DecimalSpelling) : ℚ := if s.sign.isMinus then -s.magnitude else s.magnitude

/-- The numeral without its sign, with the point moved behind its last digit. -/
def decimal (s : DecimalSpelling) : Decimal :=
  ⟨digitsValue (s.whole ++ s.fraction.getD []), exponentValue s.exponent -
    (s.fraction.getD []).length⟩

/-- Moving the point does not change the value. -/
theorem value_decimal (s : DecimalSpelling) : s.decimal.value = s.magnitude := by
  obtain ⟨-, whole, fraction, exponent, -, -, -⟩ := s
  show ((digitsValue (whole ++ fraction.getD []) : Nat) : ℚ) *
      10 ^ (exponentValue exponent - ((fraction.getD []).length : Int)) =
    (digitsValue whole + digitsValue (fraction.getD []) / 10 ^ (fraction.getD []).length) *
      10 ^ exponentValue exponent
  generalize fraction.getD [] = ds
  have hdigits : digitsValue (whole ++ ds) =
      tenTo ds.length * digitsValue whole + digitsValue ds := by
    unfold digitsValue
    rw [Nat.ofDigitChars_append, Nat.ofDigitChars_eq_ofDigitChars_zero]
    rfl
  have hten : (10 : ℚ) ^ ds.length ≠ 0 := by positivity
  rw [hdigits, Nat.cast_add, Nat.cast_mul, cast_tenTo, zpow_sub₀ (by norm_num), zpow_natCast]
  field_simp

theorem magnitude_nonneg (s : DecimalSpelling) : 0 ≤ s.magnitude := by
  rw [← value_decimal]
  exact s.decimal.value_nonneg

theorem abs_value (s : DecimalSpelling) : |s.value| = s.magnitude := by
  unfold value
  split
  · rw [abs_neg, abs_of_nonneg s.magnitude_nonneg]
  · rw [abs_of_nonneg s.magnitude_nonneg]

/-! ## Reading Decimal Numerals -/

/-- A numeral without its sign starts with a digit or a point. -/
theorem exists_body_eq_cons (s : DecimalSpelling) :
    ∃ c cs, s.body = c :: cs ∧ Numeral.StartsDecimal c := by
  obtain ⟨-, whole, fraction, exponent, hwhole, -, hsome⟩ := s
  cases whole with
  | cons c whole => exact ⟨c, _, rfl, .inl (hwhole c List.mem_cons_self)⟩
  | nil =>
    cases fraction with
    | none => exact absurd rfl hsome
    | some ds => exact ⟨'.', _, rfl, .inr rfl⟩

/-- A numeral without its sign is read digit by digit. -/
theorem readDecimal?_body (s : DecimalSpelling) :
    Numeral.readDecimal? s.body = some s.decimal := by
  have hspan : s.body.span Char.isDigit =
      (s.whole, fractionText s.fraction ++ exponentText s.exponent) :=
    span_isDigit s.wholeDigits fun c hc => head_fractionText hc
  have hempty : (s.whole.isEmpty && (s.fraction.getD []).isEmpty) = false := by
    rw [Bool.eq_false_iff]
    intro hnone
    rw [Bool.and_eq_true, List.isEmpty_iff, List.isEmpty_iff] at hnone
    exact s.someDigit (List.append_eq_nil_iff.2 hnone)
  simp only [Numeral.readDecimal?, hspan, Numeral.splitFraction_text s.fractionDigits,
    Numeral.readExponent?_text, hempty]
  rfl

/-- Every decimal numeral is read as the decimal that it spells. -/
theorem read?_text (s : DecimalSpelling) :
    Numeral.read? s.text = some (.decimal s.sign.isMinus s.decimal) := by
  obtain ⟨c, cs, hbody, hc⟩ := s.exists_body_eq_cons
  have hsign : splitSign s.text = (s.sign.isMinus, c :: cs) := by
    rw [text, hbody]
    apply SignMark.splitSign_text
    intro d hd
    obtain rfl : c = d := Option.some.inj hd
    exact hc.ne_sign
  rw [Numeral.read?_of_splitSign hsign hc, ← hbody, s.readDecimal?_body]
  rfl

end DecimalSpelling

namespace Numeral

/-- What is read digit by digit is a numeral without a sign. -/
theorem exists_of_readDecimal? (sign : SignMark) {cs : List Char} {d : Decimal}
    (h : readDecimal? cs = some d) :
    ∃ s : DecimalSpelling, s.sign = sign ∧ s.body = cs ∧ s.decimal = d := by
  unfold readDecimal? at h
  simp only [List.span_eq_takeWhile_dropWhile] at h
  split at h
  · cases h
  next hsome =>
  obtain ⟨fraction, hfraction, hdigits, hall⟩ :=
    exists_splitFraction (cs.dropWhile Char.isDigit)
  rw [← hdigits] at h hsome
  obtain ⟨n, hn, hd⟩ := Option.map_eq_some_iff.1 h
  obtain ⟨exponent, hexponent, rfl⟩ := exists_of_readExponent? hn
  refine ⟨⟨sign, cs.takeWhile Char.isDigit, fraction, exponent,
    fun c hc => List.mem_takeWhile_imp hc, hall, ?_⟩, rfl, ?_, hd⟩
  · intro hnil
    rw [List.append_eq_nil_iff] at hnil
    rw [hnil.1, hnil.2] at hsome
    exact hsome rfl
  · show cs.takeWhile Char.isDigit ++ (fractionText fraction ++ exponentText exponent) = cs
    rw [hexponent, hfraction, List.takeWhile_append_dropWhile]

/-- Nothing but a decimal numeral is read as a decimal. -/
theorem exists_of_read? {cs : List Char} {negative : Bool} {d : Decimal}
    (h : read? cs = some (.decimal negative d)) :
    ∃ s : DecimalSpelling, s.text = cs ∧ s.sign.isMinus = negative ∧ s.decimal = d := by
  unfold read? at h
  simp only at h
  split at h
  · cases h
  split at h
  · cases h
  obtain ⟨d', hd', hnumeral⟩ := Option.map_eq_some_iff.1 h
  obtain ⟨rfl, rfl⟩ : (splitSign cs).1 = negative ∧ d' = d := by
    cases hnumeral
    exact ⟨rfl, rfl⟩
  obtain ⟨sign, htext, hminus⟩ := SignMark.exists_splitSign cs
  obtain ⟨s, hsign, hbody, hdecimal⟩ := exists_of_readDecimal? sign hd'
  refine ⟨s, ?_, ?_, hdecimal⟩
  · rw [DecimalSpelling.text, hsign, hbody, htext]
  · rw [hsign, hminus]

end Numeral

/-! ## Rounding Decimal Numerals -/

namespace DecimalSpelling

/-- A numeral overflows from the limit on, whatever its sign is. -/
theorem toMagnitude?_eq_none_iff (s : DecimalSpelling) :
    s.decimal.toMagnitude? = none ↔ overflowLimit ≤ |s.value| := by
  rw [Decimal.toMagnitude?_eq_none_iff, value_decimal, abs_value]

/-- A numeral is rounded to a positive number above the limit. -/
theorem isPositive_iff {s : DecimalSpelling} {x : Magnitude}
    (h : s.decimal.toMagnitude? = some x) :
    (Binary64.finite s.sign.isMinus x).isPositive = true ↔ underflowLimit < s.value := by
  have hzero : x.significand = 0 ↔ s.magnitude ≤ underflowLimit := by
    rw [Decimal.significand_eq_zero_iff h, value_decimal]
  by_cases hminus : s.sign.isMinus = true
  · -- below zero nothing is positive, before and after rounding
    have hvalue : s.value ≤ underflowLimit := by
      rw [value, if_pos hminus]
      exact (neg_nonpos.2 s.magnitude_nonneg).trans underflowLimit_pos.le
    rw [hminus]
    exact iff_of_false Bool.false_ne_true (not_lt.2 hvalue)
  · rw [value, if_neg hminus, ← not_le, ← hzero]
    simp [Binary64.isPositive, hminus]

end DecimalSpelling

/-- The finite numbers that are read are the numerals that do not overflow, rounded. -/
theorem Binary64.read?_eq_finite_iff {cs : List Char} {negative : Bool} {x : Magnitude} :
    Binary64.read? cs = some (.finite negative x) ↔
      ∃ s : DecimalSpelling, s.text = cs ∧ s.sign.isMinus = negative ∧
        s.decimal.toMagnitude? = some x := by
  unfold Binary64.read?
  constructor
  · intro h
    obtain ⟨numeral, hread, hround⟩ := Option.map_eq_some_iff.1 h
    cases numeral with
    | nan => cases hround
    | infinity => cases hround
    | decimal negative' d =>
      obtain ⟨s, htext, hsign, hdecimal⟩ := Numeral.exists_of_read? hread
      refine ⟨s, htext, ?_⟩
      rw [hsign, hdecimal]
      cases hx : d.toMagnitude? with
      | none =>
        rw [Numeral.toBinary64, hx] at hround
        cases hround
      | some y =>
        rw [Numeral.toBinary64, hx] at hround
        cases hround
        exact ⟨rfl, rfl⟩
  · rintro ⟨s, rfl, rfl, hx⟩
    rw [s.read?_text, Option.map_some, Numeral.toBinary64, hx]
    rfl

/-! ## What a Text Denotes -/

/-- The text is a decimal numeral of the value. -/
def Denotes (cs : List Char) (v : ℚ) : Prop :=
  ∃ s : DecimalSpelling, s.text = cs ∧ s.value = v

/-- A text is a numeral of one value only. -/
theorem Denotes.unique {cs : List Char} {v w : ℚ} (hv : Denotes cs v) (hw : Denotes cs w) :
    v = w := by
  obtain ⟨s, htext, rfl⟩ := hv
  obtain ⟨s', htext', rfl⟩ := hw
  have hread := s.read?_text
  rw [htext, ← htext', s'.read?_text] at hread
  injection hread with hnumeral
  injection hnumeral with hsign hdecimal
  rw [DecimalSpelling.value, DecimalSpelling.value, ← s.value_decimal, ← s'.value_decimal, hsign,
    hdecimal]

/-! ## Words -/

/-- The words for an infinity and for no number at all. -/
def words : List (List Char) := [['n', 'a', 'n'], ['i', 'n', 'f'],
  ['i', 'n', 'f', 'i', 'n', 'i', 't', 'y']]

/-- The text is such a word, in whatever case, and perhaps with a sign. -/
def IsWord (cs : List Char) : Prop :=
  ∃ (sign : SignMark) (word : List Char), sign.text ++ word = cs ∧
    word.map Char.toLower ∈ words

/-- The sign in front of a word is split off. -/
theorem splitSign_word (sign : SignMark) {word : List Char}
    (h : word.map Char.toLower ∈ words) : splitSign (sign.text ++ word) = (sign.isMinus, word) := by
  refine sign.splitSign_text fun c hc => ?_
  have hletter : c.toLower = 'n' ∨ c.toLower = 'i' := by
    cases word with
    | nil => cases hc
    | cons d word =>
      cases hc
      simp only [words, List.mem_cons, List.map_cons, List.cons.injEq] at h
      rcases h with h | h | h | h
      · exact .inl h.1
      · exact .inr h.1
      · exact .inr h.1
      · cases h
  constructor
  · rintro rfl
    exact absurd hletter (by decide)
  · rintro rfl
    exact absurd hletter (by decide)

namespace Numeral

/-- The words are read, and they are not read as decimals. -/
theorem isWord_iff {cs : List Char} :
    IsWord cs ↔ read? cs = some .nan ∨ ∃ negative, read? cs = some (.infinity negative) := by
  constructor
  · rintro ⟨sign, word, rfl, hword⟩
    simp only [read?, splitSign_word sign hword]
    simp only [words, List.mem_cons, List.not_mem_nil, or_false] at hword
    rcases hword with h | h | h
    · rw [h]
      exact .inl rfl
    · rw [h]
      exact .inr ⟨_, rfl⟩
    · rw [h]
      exact .inr ⟨_, rfl⟩
  · intro hread
    obtain ⟨sign, htext, -⟩ := SignMark.exists_splitSign cs
    refine ⟨sign, (splitSign cs).2, htext, ?_⟩
    unfold read? at hread
    simp only at hread
    split at hread
    · next hnan =>
      rw [hnan]
      exact List.mem_cons_self
    · split at hread
      · next hinfinity =>
        simp [words, hinfinity]
      · -- what is read digit by digit is a decimal
        rcases hread with hread | ⟨negative, hread⟩
        · obtain ⟨d, -, hd⟩ := Option.map_eq_some_iff.1 hread
          cases hd
        · obtain ⟨d, -, hd⟩ := Option.map_eq_some_iff.1 hread
          cases hd

end Numeral

/-- A value that is not finite is read from a word and from a numeral that overflows. -/
theorem Binary64.read?_not_finite_iff {cs : List Char} :
    (∃ x, Binary64.read? cs = some x ∧ x.isFinite = false) ↔
      IsWord cs ∨ ∃ v, Denotes cs v ∧ overflowLimit ≤ |v| := by
  unfold Binary64.read?
  constructor
  · rintro ⟨x, hread, hfinite⟩
    obtain ⟨numeral, hnumeral, rfl⟩ := Option.map_eq_some_iff.1 hread
    cases numeral with
    | nan => exact .inl (Numeral.isWord_iff.2 (.inl hnumeral))
    | infinity negative => exact .inl (Numeral.isWord_iff.2 (.inr ⟨negative, hnumeral⟩))
    | decimal negative d =>
      obtain ⟨s, htext, -, hdecimal⟩ := Numeral.exists_of_read? hnumeral
      refine .inr ⟨s.value, ⟨s, htext, rfl⟩, ?_⟩
      rw [← s.toMagnitude?_eq_none_iff, hdecimal]
      cases hround : d.toMagnitude? with
      | none => rfl
      | some m =>
        rw [Numeral.toBinary64, hround] at hfinite
        cases hfinite
  · rintro (hword | ⟨v, ⟨s, rfl, rfl⟩, hle⟩)
    · rcases Numeral.isWord_iff.1 hword with hread | ⟨negative, hread⟩
      · rw [hread]
        exact ⟨.nan, rfl, rfl⟩
      · rw [hread]
        exact ⟨.infinity negative, rfl, rfl⟩
    · rw [s.read?_text, Option.map_some, Numeral.toBinary64, s.toMagnitude?_eq_none_iff.2 hle]
      exact ⟨.infinity s.sign.isMinus, rfl, rfl⟩

end ChipSettings.Number
