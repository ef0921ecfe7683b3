import ChipSettings.Validation

/-! # What the Verdicts Mean

  Each rule reads a text as a number and then asks, if at all, whether the number is positive. So
  a verdict tells what is read from the text.

  - A text is valid or not positive by the sign of what is read from it.
  - A text is no integer or no number if nothing is read from it.
-/

namespace ChipSettings

namespace Rule

variable {text : String}

theorem check_positiveInteger_eq_valid_iff :
    positiveInteger.check text = .valid ↔ ∃ n, readInteger text = some n ∧ 0 < n := by
  unfold check
  cases readInteger text with
  | none => simp
  | some n => simp

theorem check_positiveInteger_eq_notPositive_iff :
    positiveInteger.check text = .invalid .notPositive ↔
      ∃ n, readInteger text = some n ∧ ¬ 0 < n := by
  unfold check
  cases readInteger text with
  | none => simp
  | some n => simp

theorem check_positiveInteger_eq_notAnInteger_iff :
    positiveInteger.check text = .invalid .notAnInteger ↔ readInteger text = none := by
  unfold check
  cases readInteger text with
  | none => simp
  | some n => by_cases h : 0 < n <;> simp [h]

theorem check_number_eq_valid_iff :
    number.check text = .valid ↔ (readNumber text).isSome := by
  unfold check
  cases readNumber text with
  | none => simp
  | some x => simp

/-- Not being positive is no objection where any number will do. -/
theorem check_number_ne_notPositive : number.check text ≠ .invalid .notPositive := by
  unfold check
  cases readNumber text with
  | none => simp
  | some x => simp

theorem check_number_eq_notANumber_iff :
    number.check text = .invalid .notANumber ↔ readNumber text = none := by
  unfold check
  cases readNumber text with
  | none => simp
  | some x => simp

theorem check_positiveNumber_eq_valid_iff :
    positiveNumber.check text = .valid ↔ ∃ x, readNumber text = some x ∧ x.isPositive = true := by
  unfold check
  cases readNumber text with
  | none => simp
  | some x => simp

theorem check_positiveNumber_eq_notPositive_iff :
    positiveNumber.check text = .invalid .notPositive ↔
      ∃ x, readNumber text = some x ∧ x.isPositive = false := by
  unfold check
  cases readNumber text with
  | none => simp
  | some x => simp

theorem check_positiveNumber_eq_notANumber_iff :
    positiveNumber.check text = .invalid .notANumber ↔ readNumber text = none := by
  unfold check
  cases readNumber text with
  | none => simp
  | some x => by_cases h : x.isPositive <;> simp [h]

end Rule

end ChipSettings
