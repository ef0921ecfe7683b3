import ChipSettings.Proofs.Form.FailedCommit
import ChipSettings.Proofs.Form.Gate

/-! # Verdicts and What Was Checked

  The verdicts of a form remember nothing but the last check of each field since the form was
  last filled.

  - `Mark`: what happens to verdicts, in order. `Session.history` are the marks of a run.
  - `lastChecked f history`: the text that the field had when it was last checked, if it has
    been checked since the form was last filled.
  - `Editor.Remembers e history`: every verdict is that of the last checked text. Each
    operation keeps this (`remembers_perform`), so that every run does (`remembers_run`).
  - `verdict_history`: what this says about the gate, which is asked in three ways.
-/

namespace ChipSettings

open Files

/-! ## Marks -/

/-- What happens to verdicts. -/
inductive Mark where
  /-- The form is filled from a profile. -/
  | load
  /-- The text of a field is checked. -/
  | check (f : Field) (text : String)
deriving DecidableEq

/-- The text of a check of the field. -/
def Mark.text? (f : Field) : Mark → Option String
  | load => none
  | check g text => if g = f then some text else none

/-- The text that the field had when it was last checked, if it has been checked since the
    form was last filled. -/
def lastChecked (f : Field) (history : List Mark) : Option String :=
  (history.reverse.takeWhile fun m => m != .load).findSome? (Mark.text? f)

/-- The verdict on the text that was last checked; a field is valid until it is checked. -/
def lastVerdict (f : Field) (history : List Mark) : Verdict :=
  match lastChecked f history with
  | some text => f.validate text
  | none => .valid

section Marks

variable {f g : Field} {text : String} {history : List Mark}

/-- Nothing has been checked when the form was just filled. -/
@[simp] theorem lastChecked_load (f : Field) (history : List Mark) :
    lastChecked f (history ++ [.load]) = none := by
  simp [lastChecked]

/-- A check of a field is the last one. -/
@[simp] theorem lastChecked_check_self (f : Field) (text : String) (history : List Mark) :
    lastChecked f (history ++ [.check f text]) = some text := by
  simp [lastChecked, Mark.text?]

/-- A check of another field does not count. -/
theorem lastChecked_check_of_ne (h : g ≠ f) (text : String) (history : List Mark) :
    lastChecked f (history ++ [.check g text]) = lastChecked f history := by
  simp [lastChecked, Mark.text?, h]

end Marks

/-! ## Forms That Remember -/

namespace Editor

/-- Every verdict is that on the text that was last checked. -/
def Remembers (e : Editor) (history : List Mark) : Prop :=
  ∀ f, e.verdicts f = lastVerdict f history

variable {e : Editor} {history : List Mark}

/-- A form that was just filled has checked nothing. -/
theorem remembers_ofProfile (p : Profile) (history : List Mark) :
    (ofProfile p).Remembers (history ++ [.load]) := by
  intro f
  rw [lastVerdict, lastChecked_load]
  rfl

/-- Leaving a field is a check of its text. -/
theorem Remembers.leaveField (h : e.Remembers history) (f : Field) :
    (e.leaveField f).Remembers (history ++ [.check f (e.texts f)]) := by
  intro g
  by_cases hg : g = f
  · rw [hg, verdicts_leaveField_self, lastVerdict, lastChecked_check_self]
  · rw [verdicts_leaveField_of_ne _ hg, lastVerdict, lastChecked_check_of_ne (Ne.symm hg)]
    exact h g

/-- Leaving fields one after the other is a check of each, and no text changes meanwhile. -/
theorem Remembers.foldl_leaveField (h : e.Remembers history) (fields : List Field) :
    (fields.foldl Editor.leaveField e).Remembers
      (history ++ fields.map fun f => .check f (e.texts f)) := by
  induction fields generalizing e history with
  | nil =>
    rw [List.map_nil, List.append_nil]
    exact h
  | cons f fields ih =>
    rw [List.map_cons, List.append_cons]
    exact ih (h.leaveField f)

end Editor

/-! ## Runs -/

namespace Session

/-- What an operation does to verdicts. -/
def marks (store : Store) (s : Session) : Operation → List Mark
  | .openForm => [.load]
  | .load _ => [.load]
  | .leaveField f => [.check f (s.editor.texts f)]
  | .validateAll => Field.all.map fun f => .check f (s.editor.texts f)
  | .importForm path => match s.editor.importFrom store s.files path with
    | .ok e => .load :: Field.all.map fun f => .check f (e.texts f)
    | .error _ => []
  | _ => []

/-- What a run does to verdicts. -/
def history (store : Store) (s : Session) : List Operation → List Mark
  | [] => []
  | operation :: operations =>
    s.marks store operation ++ history store (s.perform store operation).2 operations

/-- Each operation is remembered. -/
theorem remembers_perform (store : Store) {s : Session} {history : List Mark}
    (h : s.editor.Remembers history) (operation : Operation) :
    (s.perform store operation).2.editor.Remembers (history ++ s.marks store operation) := by
  -- most operations leave no mark
  have hnone : s.editor.Remembers (history ++ []) := by
    rw [List.append_nil]
    exact h
  cases operation with
  | openForm => exact Editor.remembers_ofProfile s.current history
  | load p => exact Editor.remembers_ofProfile p history
  | leaveField f => exact h.leaveField f
  | validateAll => exact h.foldl_leaveField Field.all
  -- an import that succeeds fills the form and then checks everything
  | importForm path =>
    unfold perform marks
    simp only
    cases himport : s.editor.importFrom store s.files path with
    | error e => exact hnone
    | ok editor =>
      obtain ⟨p, -, rfl⟩ := Editor.importFrom_ok himport
      show (s.editor.load p).validateAll.Remembers (history ++ .load :: Field.all.map fun f =>
        .check f ((s.editor.load p).validateAll.texts f))
      rw [Editor.texts_validateAll, List.append_cons]
      exact (Editor.remembers_ofProfile p history).foldl_leaveField Field.all
  -- layers have no verdicts
  | addLayer k =>
    unfold perform
    simp only
    split
    · next editor hadd =>
      obtain ⟨c, rfl⟩ := Editor.exists_of_addLayer? hadd
      exact hnone
    · exact hnone
  -- the others leave the form alone, whether they succeed or fail
  | accept => unfold perform; simp only; split <;> exact hnone
  | exportForm path => unfold perform; simp only; split <;> exact hnone
  | exportProfile path p => unfold perform; simp only; split <;> exact hnone
  | writeCurrent f text => unfold perform; simp only; split <;> exact hnone
  | _ => exact hnone

/-- Every run is remembered. -/
theorem remembers_run (store : Store) (operations : List Operation) {s : Session}
    {history : List Mark} (h : s.editor.Remembers history) :
    (s.run store operations).editor.Remembers (history ++ s.history store operations) := by
  induction operations generalizing s history with
  | nil =>
    rw [Session.history, List.append_nil]
    exact h
  | cons operation operations ih =>
    rw [Session.history, ← List.append_assoc]
    exact ih (remembers_perform store h operation)

end Session

/-! ## The Gate, Asked in Three Ways -/

namespace Editor

variable {e : Editor} {store : Store} {t : FileTree} {current : Profile} {path : Path}

/-- The invalid fields are those whose verdict is not valid. -/
theorem mem_invalidFields {f : Field} : f ∈ e.invalidFields ↔ e.verdicts f ≠ .valid := by
  unfold invalidFields
  cases hverdict : e.verdicts f with
  | valid => simp [hverdict, Verdict.isValid]
  | invalid fault => simp [hverdict, Verdict.isValid, Field.mem_all f]

/-- A form with an invalid field is neither accepted nor exported, and the error carries the
    invalid fields. -/
theorem refused_of_invalid (h : e.invalidFields ≠ []) (store : Store) (current : Profile)
    (t : FileTree) (path : Path) :
    e.accept store current t = (.error (.invalidFields e.invalidFields), t) ∧
      e.exportTo store t path = .error (.invalidFields e.invalidFields) := by
  have hrefused := ensureCommittable_of_invalid h
  constructor
  · unfold accept
    simp only [hrefused]
  · unfold exportTo
    simp only [hrefused, bind, Except.bind]

/-- A store whose codec says nothing about fields does not fail for their sake. -/
theorem ne_invalidFields_of_codec (hcodec : ∀ p fields,
    store.codec.serialize p ≠ .error (.invalidFields fields)) {p : Profile} {fields : List Field}
    {error : SettingsError}
    (h : store.codec.serialize p = .error error ∨ ∃ path cause, error = .io path cause) :
    error ≠ .invalidFields fields := by
  rintro rfl
  rcases h with hserialize | ⟨path, cause, hio⟩
  · exact hcodec p fields hserialize
  · cases hio

/-- An accept that fails for the sake of fields has been refused at the gate. -/
theorem accept_invalidFields (hcodec : ∀ p fields,
    store.codec.serialize p ≠ .error (.invalidFields fields)) {fields : List Field}
    (h : (e.accept store current t).1 = .error (.invalidFields fields)) :
    e.invalidFields ≠ [] ∧ fields = e.invalidFields := by
  rcases accept_error (Prod.ext h rfl) with ⟨hinvalid, herror, -⟩ | ⟨-, hpersist⟩
  · exact ⟨hinvalid, SettingsError.invalidFields.inj herror⟩
  · exact absurd rfl (ne_invalidFields_of_codec hcodec (Store.persistCurrent_error hpersist).2)

/-- An export that fails for the sake of fields has been refused at the gate. -/
theorem exportTo_invalidFields (hcodec : ∀ p fields,
    store.codec.serialize p ≠ .error (.invalidFields fields)) {fields : List Field}
    (h : e.exportTo store t path = .error (.invalidFields fields)) :
    e.invalidFields ≠ [] ∧ fields = e.invalidFields := by
  rcases exportTo_error h with ⟨hinvalid, herror⟩ | ⟨-, hexport⟩
  · exact ⟨hinvalid, SettingsError.invalidFields.inj herror⟩
  · have hreason := (Store.exportTo_eq_error hexport).imp_right fun hio =>
      show ∃ path cause, _ = SettingsError.io path cause from ⟨path, hio⟩
    exact absurd rfl (ne_invalidFields_of_codec hcodec hreason)

end Editor

/-- **The verdicts are the history of checks**: after any run from a form that was just filled,
    the verdict of a field is the one on the text that it had when it was last checked (left,
    validated with all others, or imported) since the form was last filled, and it is valid if
    there was no such check. The invalid fields are those whose verdict is not valid, each
    once and in field order. The gate is open if there are none, which is to say if neither
    an accept nor an export fails for the sake of fields; otherwise both fail with exactly the
    invalid fields. (A codec might answer with fields on its own account; one that writes
    settings documents does not.) -/
theorem verdict_history (store : Store) (p current : Profile) (files : FileTree)
    (operations : List Operation) :
    let start : Session := ⟨.ofProfile p, current, files⟩
    let e := (start.run store operations).editor
    (∀ f, e.verdicts f = match lastChecked f (start.history store operations) with
        | some text => f.validate text
        | none => .valid) ∧
      e.invalidFields.Sublist Field.all ∧ e.invalidFields.Nodup ∧
      (∀ f, f ∈ e.invalidFields ↔ e.verdicts f ≠ .valid) ∧
      (e.canCommit = true ↔ e.invalidFields = []) ∧
      ∀ (target : Store) (current : Profile) (t : FileTree) (path : Path),
        (e.invalidFields ≠ [] →
          e.accept target current t = (.error (.invalidFields e.invalidFields), t) ∧
            e.exportTo target t path = .error (.invalidFields e.invalidFields)) ∧
        ((∀ p fields, target.codec.serialize p ≠ .error (.invalidFields fields)) →
          (e.invalidFields = [] ↔
            ∀ fields, (e.accept target current t).1 ≠ .error (.invalidFields fields)) ∧
          (e.invalidFields = [] ↔
            ∀ fields, e.exportTo target t path ≠ .error (.invalidFields fields)) ∧
          ∀ fields, ((e.accept target current t).1 = .error (.invalidFields fields) ∨
            e.exportTo target t path = .error (.invalidFields fields)) →
              fields = e.invalidFields) := by
  intro start e
  have hstart : start.editor.Remembers [] := fun _ => rfl
  refine ⟨Session.remembers_run store operations hstart, List.filter_sublist,
    Field.nodup_all.filter _, fun f => Editor.mem_invalidFields,
    e.invalidFields_eq_nil_iff.symm, fun target current t path => ⟨fun hinvalid =>
      e.refused_of_invalid hinvalid target current t path, fun hcodec => ⟨⟨?_, ?_⟩, ⟨?_, ?_⟩, ?_⟩⟩⟩
  · intro hnone fields h
    exact (Editor.accept_invalidFields hcodec h).1 hnone
  · intro h
    refine Classical.byContradiction fun hinvalid => h e.invalidFields ?_
    rw [(e.refused_of_invalid hinvalid target current t path).1]
  · intro hnone fields h
    exact (Editor.exportTo_invalidFields hcodec h).1 hnone
  · intro h
    exact Classical.byContradiction fun hinvalid =>
      h e.invalidFields (e.refused_of_invalid hinvalid target current t path).2
  · rintro fields (h | h)
    · exact (Editor.accept_invalidFields hcodec h).2
    · exact (Editor.exportTo_invalidFields hcodec h).2

/-- A radius of zero that was checked and then typed over: the form is refused for its sake, and
    for no other reason, until the field is left again. -/
theorem verdict_history_typed_over :
    let e := ((⟨.ofProfile .default, .default, .empty⟩ : Session).run (.atPath ⟨"f"⟩)
      [.setText (.measure .punchRadius) "0", .leaveField (.measure .punchRadius),
        .setText (.measure .punchRadius) "3"]).editor
    e.verdicts (.measure .punchRadius) = .invalid .notPositive ∧
      e.invalidFields = [.measure .punchRadius] ∧
      e.exportTo (.atPath ⟨"f"⟩) .empty ⟨"x"⟩ = .error (.invalidFields [.measure .punchRadius]) ∧
      ∃ fields, (e.accept (.atPath ⟨"f"⟩) .default .empty).1 = .error (.invalidFields fields) := by
  intro e
  obtain ⟨hverdict, -, -, -, -, hgate⟩ := verdict_history (.atPath ⟨"f"⟩) .default .default .empty
    [.setText (.measure .punchRadius) "0", .leaveField (.measure .punchRadius),
      .setText (.measure .punchRadius) "3"]
  have hinvalid : e.invalidFields = [.measure .punchRadius] := by decide +kernel
  obtain ⟨hrefused, hwords⟩ := hgate (.atPath ⟨"f"⟩) .default .empty ⟨"x"⟩
  rw [show Editor.invalidFields _ = _ from hinvalid] at hrefused hwords
  refine ⟨(hverdict _).trans (by decide +kernel), hinvalid,
    (hrefused (List.cons_ne_nil _ _)).2, ?_⟩
  -- the codec of settings documents never speaks of fields
  obtain ⟨haccept, -, -⟩ := hwords fun _ _ h => nomatch h
  refine Classical.byContradiction fun hnone => ?_
  cases haccept.2 fun fields h => hnone ⟨fields, h⟩

end ChipSettings
