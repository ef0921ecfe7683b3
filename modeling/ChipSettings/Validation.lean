import ChipSettings.Profile
import ChipSettings.Text.Blank

/-! # Validation of Field Texts

  A text typed into a field is trimmed and read as the field's number.

  - `Rule.check` decides whether a text meets a rule, and why not if it does not.
  - `Field.write` stores a text's value in a profile when the text reads as a number;
    it does not ask whether the value is in range.
  - `Field.read` is the text a value is shown as.
-/

namespace ChipSettings

open Number Text

/-! ## Reading Typed Numbers -/

/-- A typed integer: blanks around it are dropped. -/
def readInteger (s : String) : Option Int32 := readInt32? (trimBoth isBlank s.toList)

/-- A typed real: blanks around it are dropped, and only finite values count. -/
def readNumber (s : String) : Option Binary64 :=
  (Binary64.read? (trimBoth isBlank s.toList)).filter Binary64.isFinite

/-! ## Verdicts -/

/-- Why a text was refused. -/
inductive Fault where
  | notAnInteger
  | notANumber
  | notPositive
deriving DecidableEq

namespace Fault

/-- Name of the fault. -/
def name : Fault → String
  | notAnInteger => "NotAnInteger"
  | notANumber => "NotANumber"
  | notPositive => "NotPositive"

/-- The fault in the user's words. -/
def message : Fault → String
  | notAnInteger => "not an integer"
  | notANumber => "not a number"
  | notPositive => "must be strictly positive"

end Fault

/-- What validation said about a field. -/
inductive Verdict where
  | valid
  | invalid (fault : Fault)
deriving DecidableEq, Inhabited

namespace Verdict

/-- Was the text accepted? -/
def isValid : Verdict → Bool
  | valid => true
  | invalid _ => false

/-- The reason, if the text was refused. -/
def fault? : Verdict → Option Fault
  | valid => none
  | invalid fault => some fault

end Verdict

/-! ## Rules -/

/-- Check a text against a rule. -/
def Rule.check (rule : Rule) (text : String) : Verdict :=
  match rule with
  | positiveInteger => match readInteger text with
    | some n => if 0 < n then .valid else .invalid .notPositive
    | none => .invalid .notAnInteger
  | number => match readNumber text with
    | some _ => .valid
    | none => .invalid .notANumber
  | positiveNumber => match readNumber text with
    | some x => if x.isPositive then .valid else .invalid .notPositive
    | none => .invalid .notANumber

namespace Field

/-- Check a text against the rule of a field. -/
def validate (f : Field) (text : String) : Verdict := f.rule.check text

/-! ## Values and Their Texts -/

/-- The text a field's value is shown as. -/
def read (f : Field) (p : Profile) : String :=
  match f with
  | punchBarNumber => String.ofList (intText p.punchBarNumber.toInt)
  | measure m => String.ofList (p.real m).text

/-- Store the value of a text in a profile; `none` when the text is no number. -/
def write? (f : Field) (p : Profile) (text : String) : Option Profile :=
  match f with
  | punchBarNumber => (readInteger text).map fun n => { p with punchBarNumber := n }
  | measure m => (readNumber text).map (p.setReal m)

/-- Store the value of a text in a profile, which stays as it is when the text is
    no number. -/
def write (f : Field) (p : Profile) (text : String) : Profile :=
  (f.write? p text).getD p

end Field

end ChipSettings
