import ChipSettings.Proofs.Form.Shown
import ChipSettings.Proofs.Form.Verdicts

/-! # Texts and the Values They Stand For

  What it means that the text of a field reads as the field's value in a profile, and what
  validation says about it.

  - `Field.Matches f text p`: the text reads as the value of the field. `Field.reads` says
    that it reads as some value.
  - `validate_eq_valid_iff`: a text that reads as a value validates if the value is in range.
    What a field shows is such a text (`validate_read_iff`).
  - `reads_iff_validate`: a text reads as some value if validation calls it valid or not positive.
  - `Field.SameValue f p q`: two profiles have the same value in a field.
  - `Profile.InRange`: all numbers of the profile are in range.
-/

namespace ChipSettings

open Number Text

/-! ## Texts That Read as Values -/

namespace Field

/-- The text reads as the value that the field has in the profile. -/
def Matches (f : Field) (text : String) (p : Profile) : Prop :=
  match f with
  | punchBarNumber => readInteger text = some p.punchBarNumber
  | measure m => readNumber text = some (p.real m)

variable {f : Field} {text : String} {p : Profile}

/-- The value that a field has in the profile meets the rule of the field. -/
def InRange (f : Field) (p : Profile) : Prop :=
  match f with
  | punchBarNumber => 0 < p.punchBarNumber
  | measure m => (p.real m).isFinite = true ∧
      ((measure m).rule = .positiveNumber → (p.real m).isPositive = true)

/-- Is the text a number that the field can hold? -/
def reads (f : Field) (text : String) : Bool :=
  match f with
  | punchBarNumber => (readInteger text).isSome
  | measure _ => (readNumber text).isSome

/-- The rule of a measure asks for a number, or for a positive one. -/
theorem rule_measure (m : Measure) :
    (measure m).rule = .number ∨ (measure m).rule = .positiveNumber := by
  cases m <;> first | exact .inl rfl | exact .inr rfl

/-- A text that reads as a value validates if the value is in range, and only then. -/
theorem validate_eq_valid_iff (h : f.Matches text p) :
    f.validate text = .valid ↔ f.InRange p := by
  cases f with
  | punchBarNumber =>
    have hread : readInteger text = some p.punchBarNumber := h
    show Rule.positiveInteger.check text = .valid ↔ 0 < p.punchBarNumber
    rw [Rule.check_positiveInteger_eq_valid_iff, hread]
    simp
  | measure m =>
    have hread : readNumber text = some (p.real m) := h
    have hfinite : (p.real m).isFinite = true := by
      rw [readNumber, Option.filter_eq_some_iff] at hread
      exact hread.2
    show (measure m).rule.check text = .valid ↔
      (p.real m).isFinite = true ∧ ((measure m).rule = .positiveNumber → _)
    -- a number is finite as soon as it was read; being positive is checked in addition
    rcases rule_measure m with hrule | hrule
    · rw [hrule, Rule.check_number_eq_valid_iff, hread]
      simp [hfinite]
    · rw [hrule, Rule.check_positiveNumber_eq_valid_iff, hread]
      simp [hfinite]

/-- A text is a number of its field if the check has no other objection than its sign. -/
theorem reads_iff_validate :
    f.reads text = true ↔ f.validate text = .valid ∨ f.validate text = .invalid .notPositive := by
  cases f with
  | punchBarNumber =>
    show (readInteger text).isSome = true ↔ Rule.positiveInteger.check text = .valid ∨
      Rule.positiveInteger.check text = .invalid .notPositive
    rw [Rule.check_positiveInteger_eq_valid_iff, Rule.check_positiveInteger_eq_notPositive_iff,
      Option.isSome_iff_exists, ← exists_or]
    simp only [← and_or_left, em, and_true]
  | measure m =>
    show (readNumber text).isSome = true ↔ (measure m).rule.check text = .valid ∨
      (measure m).rule.check text = .invalid .notPositive
    -- being positive is asked of two measures only, and of a number only
    rcases rule_measure m with hrule | hrule
    · rw [hrule, Rule.check_number_eq_valid_iff, or_iff_left Rule.check_number_ne_notPositive]
    · rw [hrule, Rule.check_positiveNumber_eq_valid_iff,
        Rule.check_positiveNumber_eq_notPositive_iff, Option.isSome_iff_exists, ← exists_or]
      simp only [← and_or_left, Bool.eq_true_or_eq_false_self, and_true]

/-- A text that is no number does not validate. -/
theorem reads_of_validate (h : f.validate text = .valid) : f.reads text = true :=
  reads_iff_validate.2 (.inl h)

/-- What a field shows reads as its value, if that value is finite. -/
theorem matches_read (f : Field) (p : Profile)
    (hfinite : ∀ m, f = measure m → (p.real m).isFinite = true) : f.Matches (f.read p) p := by
  cases f with
  | punchBarNumber => exact readInteger_read p
  | measure m =>
    show readNumber ((measure m).read p) = some (p.real m)
    rw [readNumber_read, if_pos (hfinite m rfl)]

/-- What a field shows reads as its value if it reads as any. -/
theorem matches_read_of_reads (h : f.reads (f.read p) = true) : f.Matches (f.read p) p := by
  apply matches_read
  rintro m rfl
  have hnumber : (readNumber ((measure m).read p)).isSome = true := h
  rw [readNumber_read] at hnumber
  by_cases hfinite : (p.real m).isFinite = true
  · exact hfinite
  · rw [if_neg hfinite] at hnumber
    cases hnumber

/-- What a field shows validates if its value is in range, and only then. -/
theorem validate_read_iff (f : Field) (p : Profile) :
    f.validate (f.read p) = .valid ↔ f.InRange p := by
  by_cases hfinite : ∀ m, f = measure m → (p.real m).isFinite = true
  · exact validate_eq_valid_iff (matches_read f p hfinite)
  · -- an infinity or no number at all is shown by a word, which is not read as a number
    obtain ⟨m, rfl, hm⟩ : ∃ m, f = measure m ∧ ¬ (p.real m).isFinite = true := by
      simpa using hfinite
    have hread : readNumber ((measure m).read p) = none := by rw [readNumber_read, if_neg hm]
    constructor
    · intro hvalid
      have hreads : (readNumber ((measure m).read p)).isSome = true := reads_of_validate hvalid
      rw [hread] at hreads
      cases hreads
    · intro hrange
      exact absurd hrange.1 hm

/-! ## Equal Values -/

/-- The two profiles have the same value in the field. -/
def SameValue (f : Field) (p q : Profile) : Prop :=
  match f with
  | punchBarNumber => p.punchBarNumber = q.punchBarNumber
  | measure m => p.real m = q.real m

namespace SameValue

variable {q r : Profile}

theorem refl (f : Field) (p : Profile) : f.SameValue p p := by
  cases f with
  | punchBarNumber => rfl
  | measure m => rfl

theorem symm (h : f.SameValue p q) : f.SameValue q p := by
  cases f with
  | punchBarNumber => exact Eq.symm h
  | measure m => exact Eq.symm h

theorem trans (h : f.SameValue p q) (h' : f.SameValue q r) : f.SameValue p r := by
  cases f with
  | punchBarNumber => exact Eq.trans h h'
  | measure m => exact Eq.trans h h'

/-- The value is in range in both profiles or in none. -/
theorem inRange_iff (h : f.SameValue p q) : f.InRange p ↔ f.InRange q := by
  cases f with
  | punchBarNumber =>
    show 0 < p.punchBarNumber ↔ 0 < q.punchBarNumber
    rw [show p.punchBarNumber = q.punchBarNumber from h]
  | measure m =>
    show (p.real m).isFinite = true ∧ _ ↔ (q.real m).isFinite = true ∧ _
    rw [show p.real m = q.real m from h]

/-- The value is shown as the same text. -/
theorem read_eq (h : f.SameValue p q) : f.read p = f.read q := by
  cases f with
  | punchBarNumber =>
    show String.ofList (intText p.punchBarNumber.toInt) = _
    rw [show p.punchBarNumber = q.punchBarNumber from h]
    rfl
  | measure m =>
    show String.ofList (p.real m).text = _
    rw [show p.real m = q.real m from h]
    rfl

end SameValue

/-- A text reads as one value only. -/
theorem sameValue_of_matches {q : Profile} (hp : f.Matches text p) (hq : f.Matches text q) :
    f.SameValue p q := by
  cases f with
  | punchBarNumber => exact Option.some.inj (Eq.trans (Eq.symm hp) hq)
  | measure m => exact Option.some.inj (Eq.trans (Eq.symm hp) hq)

end Field

/-! ## Profiles in Range -/

namespace Profile

/-- The numbers of a profile are in range: at least one bar, all measures finite, and two of
    them positive. -/
structure InRange (p : Profile) : Prop where
  bars : 1 ≤ p.punchBarNumber
  finite : ∀ m, (p.real m).isFinite = true
  radius : p.punchRadius.isPositive = true
  resolution : p.resolution.isPositive = true

/-- There is at least one bar if the count is positive. -/
theorem one_le_iff_pos (n : Int32) : 1 ≤ n ↔ 0 < n := by
  rw [Int32.le_iff_toInt_le, Int32.lt_iff_toInt_lt]
  show 1 ≤ n.toInt ↔ 0 < n.toInt
  omega

/-- A profile is in range if every field is. -/
theorem inRange_iff {p : Profile} : p.InRange ↔ ∀ f : Field, f.InRange p := by
  constructor
  · rintro ⟨hbars, hfinite, hradius, hresolution⟩ f
    cases f with
    | punchBarNumber => exact (one_le_iff_pos _).1 hbars
    | measure m =>
      refine ⟨hfinite m, fun hrule => ?_⟩
      cases m with
      | punchRadius => exact hradius
      | resolution => exact hresolution
      | _ => cases hrule
  · intro h
    exact ⟨(one_le_iff_pos _).2 (h .punchBarNumber), fun m => (h (.measure m)).1,
      (h (.measure .punchRadius)).2 rfl, (h (.measure .resolution)).2 rfl⟩

/-- The defaults are in range. -/
theorem inRange_default : InRange default where
  bars := by decide
  finite m := by cases m <;> decide +kernel
  radius := by decide +kernel
  resolution := by decide +kernel

/-- The two profiles have the same numbers. -/
def SameNumbers (p q : Profile) : Prop :=
  p.punchBarNumber = q.punchBarNumber ∧ ∀ m, p.real m = q.real m

/-- Profiles have the same numbers if they have the same value in every field. -/
theorem sameNumbers_iff {p q : Profile} : SameNumbers p q ↔ ∀ f : Field, f.SameValue p q := by
  constructor
  · rintro ⟨hbars, hreal⟩ f
    cases f with
    | punchBarNumber => exact hbars
    | measure m => exact hreal m
  · intro h
    exact ⟨h .punchBarNumber, fun m => h (.measure m)⟩

end Profile

end ChipSettings
