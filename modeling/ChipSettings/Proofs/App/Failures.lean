import ChipSettings.Proofs.App.Frame
import Mathlib.Data.List.Induction

/-! # Failures That the Dialog Shows

  The dialog shows the failure of the last press of Import, Export or OK, and forgets it with the
  next one.

  - `Outcome`: what a gesture comes to for the status. `App.outcome` reads it off the results of
    the editor.
  - `failed_perform`, `passed_perform` and `quiet_perform`: what a gesture leaves, one lemma for
    each outcome.
  - `status_run`: the status after a run. `status_of_last_press` puts this together.
-/

namespace ChipSettings

open Files

/-! ## Outcomes -/

/-- What a gesture comes to. -/
inductive Outcome where
  /-- No press of Import, Export or OK is carried out. -/
  | unpressed
  /-- One is, and succeeds, or no path is picked for it. -/
  | passed
  /-- One is, and fails with a message. -/
  | failed (message : String)
deriving DecidableEq

/-- The outcome that belongs to a result. -/
def Outcome.ofResult {α : Type} (what : String) : Except SettingsError α → Outcome
  | .ok _ => passed
  | .error e => failed (what ++ ": " ++ e.message)

/-- A closed dialog shows no failure. -/
theorem Dialog.status_of_closed {d : Dialog} (h : d.form = none) : d.status = none := by
  rw [status, h]
  rfl

/-- A failure is shown by an open dialog. -/
theorem Dialog.isOpen_of_status {d : Dialog} {message : String} (h : d.status = some message) :
    d.isOpen = true := by
  obtain ⟨form, hform, -⟩ := Option.bind_eq_some_iff.1 h
  rw [isOpen, hform]
  rfl

namespace App

/-- The outcome of a press while the dialog shows a form. -/
def pressOutcome (a : App) (form : Form) : Button → Option String → Outcome
  | .cancel, _ => .unpressed
  | .accept, _ => .ofResult "Saving settings failed"
      (form.editor.accept a.store a.current a.files).1
  | _, none => .passed
  | .exportFile, some path =>
    .ofResult "Export failed" (form.editor.exportTo a.store a.files (pathOf path))
  | .importFile, some path =>
    .ofResult "Import failed" (form.editor.importFrom a.store a.files (pathOf path))

/-- The outcome of a gesture. A press is carried out where the dialog is open and the button
    enabled. -/
def outcome (a : App) : Gesture → Outcome
  | .press b picked => match a.dialog.form with
    | some form => if b.enabled form.editor then a.pressOutcome form b picked else .unpressed
    | none => .unpressed
  | _ => .unpressed

/-- The log has got entries, none of which is an error. -/
def AddsNoError (a a' : App) : Prop :=
  ∃ entries, a'.log = a.log ++ entries ∧ ∀ entry ∈ entries, entry.kind ≠ .error

/-- The status stays as it is, and no error is logged. -/
structure Quiet (a a' : App) : Prop where
  status : a'.dialog.status = a.dialog.status
  log : a.AddsNoError a'

variable {a a' a'' : App} {form : Form} {g : Gesture} {message : String}

/-! ## Pieces of a Quiet Gesture -/

theorem addsNoError_of_log_eq (h : a'.log = a.log) : a.AddsNoError a' :=
  ⟨[], by rw [h, List.append_nil], nofun⟩

theorem addsNoError_concat {kind : LogKind} (h : a'.log = a.log ++ [⟨kind, message⟩])
    (hkind : kind ≠ .error) : a.AddsNoError a' := by
  refine ⟨_, h, fun entry hentry => ?_⟩
  rw [List.mem_singleton.1 hentry]
  exact hkind

namespace Quiet

theorem refl (a : App) : Quiet a a := ⟨rfl, addsNoError_of_log_eq rfl⟩

theorem trans (h : Quiet a a') (h' : Quiet a' a'') : Quiet a a'' := by
  obtain ⟨entries, hlog, hentries⟩ := h.log
  obtain ⟨more, hlog', hmore⟩ := h'.log
  refine ⟨h'.status.trans h.status, entries ++ more, ?_, fun entry hentry => ?_⟩
  · rw [hlog', hlog, List.append_assoc]
  · rcases List.mem_append.1 hentry with hentry | hentry
    · exact hentries entry hentry
    · exact hmore entry hentry

theorem say (h : Quiet a a') (kind : LogKind) (message : String) (hkind : kind ≠ .error) :
    Quiet a (a'.say kind message) :=
  h.trans ⟨rfl, addsNoError_concat rfl hkind⟩

/-- The form is replaced by one that shows the same. -/
theorem setForm (h : Quiet a a') (hstatus : form.status = a.dialog.status) :
    Quiet a (a'.setForm form) :=
  ⟨hstatus, h.log⟩

/-- Only a closed dialog is opened, and then no failure has been shown. -/
theorem runCommand (h : Quiet a a') (c : Command) : Quiet a (a'.runCommand c) := by
  cases c
  have hsaid := h.say .command Command.settings.name (by decide)
  unfold App.runCommand
  simp only
  split
  · exact hsaid
  · next hclosed =>
    refine ⟨?_, hsaid.log⟩
    have hnone : (a'.say .command Command.settings.name).dialog.status = none :=
      Dialog.status_of_closed (Option.not_isSome_iff_eq_none.1 hclosed)
    exact hnone.symm.trans hsaid.status

theorem submit (h : Quiet a a') : Quiet a a'.submit := by
  have hempty : Quiet a { a' with commandLine := "" } := ⟨h.status, h.log⟩
  unfold App.submit
  simp only
  split
  · exact hempty
  · split
    · exact hempty.runCommand _
    · exact hempty.say .warning _ (by decide)

theorem leaveField (h : Quiet a a') (hstatus : form.status = a.dialog.status) (f : Field) :
    Quiet a (a'.leaveField form f) := by
  have hleft : Quiet a (a'.setForm (form.leaveField f)) := h.setForm hstatus
  unfold App.leaveField
  simp only
  split
  · exact hleft.say .validation _ (by decide)
  · exact hleft

theorem addLayer (h : Quiet a a') (hstatus : form.status = a.dialog.status) (k : LayerKind) :
    Quiet a (a'.addLayer form k) := by
  unfold App.addLayer
  split
  · next e hadd =>
    have hadded : Quiet a (a'.setEditor form e) := h.setForm hstatus
    exact hadded.say .info _ (by decide)
  · exact h.setForm hstatus

theorem typeInto (h : Quiet a a') (hstatus : form.status = a.dialog.status) (box : TextBox)
    (text : String) : Quiet a (a'.typeInto form box text) := by
  unfold App.typeInto
  split
  · exact (h.leaveField hstatus _).setForm hstatus
  · exact h.setForm hstatus

theorem enter (h : Quiet a a') : Quiet a a'.enter := by
  unfold App.enter
  split
  · exact h
  · next form hform =>
    have hstatus : form.status = a.dialog.status := by
      rw [← h.status, Dialog.status, hform]
      rfl
    split
    · exact h.leaveField hstatus _
    · next k _ =>
      have hleft : ({ form with focus := none } : Form).status = a.dialog.status := hstatus
      exact h.addLayer hleft k
    · exact h

end Quiet

/-- Whatever is done with the form of an open dialog is quiet if it is so wherever the form shows
    the status. -/
theorem quiet_onForm (a : App) (shown : Bool) {act : Form → Reaction}
    (hact : ∀ form, form.status = a.dialog.status → Quiet a (act form).app) :
    Quiet a (a.onForm shown act).app := by
  unfold onForm
  split
  · next form hform =>
    split
    · apply hact
      rw [Dialog.status, hform]
      rfl
    · exact .refl a
  · exact .refl a

/-! ## Gestures -/

/-- Only Cancel is neither a success nor a failure. -/
theorem pressOutcome_ne_unpressed (a : App) (form : Form) {b : Button} (picked : Option String)
    (hb : b ≠ .cancel) : a.pressOutcome form b picked ≠ .unpressed := by
  have hresult {α : Type} (what : String) (result : Except SettingsError α) :
      Outcome.ofResult what result ≠ .unpressed := by
    cases result <;> exact nofun
  cases b with
  | cancel => exact absurd rfl hb
  | accept => exact hresult _ _
  | exportFile => cases picked with
    | none => exact nofun
    | some path => exact hresult _ _
  | importFile => cases picked with
    | none => exact nofun
    | some path => exact hresult _ _

/-- A press is carried out, or nothing happens. -/
theorem outcome_press (a : App) (b : Button) (picked : Option String) :
    (a.outcome (.press b picked) = .unpressed ∧ (a.perform (.press b picked)).app = a) ∨
      ∃ form, a.dialog.form = some form ∧
        a.outcome (.press b picked) = a.pressOutcome form b picked ∧
        a.Pressed form b picked (a.perform (.press b picked)).app := by
  simp only [outcome, perform, onForm]
  cases hopen : a.dialog.form with
  | none => exact .inl ⟨rfl, rfl⟩
  | some form =>
    by_cases henabled : b.enabled form.editor = true
    · obtain ⟨a', hpress, hpressed⟩ := a.pressed form b picked
      simp only [henabled, if_true, hpress]
      exact .inr ⟨form, rfl, rfl, hpressed⟩
    · simp only [henabled]
      exact .inl ⟨rfl, rfl⟩

/-- What succeeds or fails is a press that is carried out. -/
theorem exists_press {outcome : Outcome} (h : a.outcome g = outcome) (hne : outcome ≠ .unpressed) :
    ∃ form b picked, g = .press b picked ∧ a.dialog.form = some form ∧
      a.pressOutcome form b picked = outcome ∧ a.Pressed form b picked (a.perform g).app := by
  cases g with
  | press b picked =>
    rcases a.outcome_press b picked with ⟨hnone, -⟩ | ⟨form, hopen, houtcome, hpressed⟩
    · exact absurd (h.symm.trans hnone) hne
    · exact ⟨form, b, picked, rfl, hopen, houtcome.symm.trans h, hpressed⟩
  | _ => exact absurd h.symm hne

/-- A failure is shown and logged, and nothing else changes but the files. -/
theorem failed_perform (h : a.outcome g = .failed message) :
    ∃ form, a.dialog.form = some form ∧
      (a.perform g).app.dialog.form = some { form with status := some message } ∧
      (a.perform g).app.current = a.current ∧
      (a.perform g).app.log = a.log ++ [⟨.error, message⟩] := by
  obtain ⟨form, b, picked, -, hopen, h, hpressed⟩ := exists_press h nofun
  refine ⟨form, hopen, ?_⟩
  generalize (a.perform g).app = a' at hpressed
  cases hpressed with
  | cancelled picked => cases h
  | saved picked current files haccept => rw [pressOutcome, haccept] at h; cases h
  | saveFailed picked error files haccept =>
    rw [pressOutcome, haccept] at h
    cases h
    exact ⟨rfl, rfl, rfl⟩
  | unpicked b hfile => rcases hfile with rfl | rfl <;> cases h
  | exported picked files hexport => rw [pressOutcome, hexport] at h; cases h
  | exportFailed picked error hexport =>
    rw [pressOutcome, hexport] at h
    cases h
    exact ⟨rfl, rfl, rfl⟩
  | imported picked e himport => rw [pressOutcome, himport] at h; cases h
  | importFailed picked error himport =>
    rw [pressOutcome, himport] at h
    cases h
    exact ⟨rfl, rfl, rfl⟩

/-- A success, or a file dialog that is cancelled, leaves no status and logs no error. -/
theorem passed_perform (h : a.outcome g = .passed) :
    (a.perform g).app.dialog.status = none ∧ a.AddsNoError (a.perform g).app := by
  obtain ⟨form, b, picked, -, -, h, hpressed⟩ := exists_press h nofun
  generalize (a.perform g).app = a' at hpressed
  have hinfo {a' : App} {message : String} (hlog : a'.log = a.log ++ [⟨.info, message⟩]) :
      a.AddsNoError a' := addsNoError_concat hlog (by decide)
  cases hpressed with
  | cancelled picked => cases h
  | saved picked current files haccept => exact ⟨rfl, hinfo rfl⟩
  | saveFailed picked error files haccept => rw [pressOutcome, haccept] at h; cases h
  | unpicked b hfile => exact ⟨rfl, addsNoError_of_log_eq rfl⟩
  | exported picked files hexport => exact ⟨rfl, hinfo rfl⟩
  | exportFailed picked error hexport => rw [pressOutcome, hexport] at h; cases h
  | imported picked e himport => exact ⟨rfl, hinfo rfl⟩
  | importFailed picked error himport => rw [pressOutcome, himport] at h; cases h

/-- Closing the dialog logs no error. -/
theorem addsNoError_of_closes (h : g.closes = true) : a.AddsNoError (a.perform g).app := by
  cases g with
  | closeDialog => exact addsNoError_of_log_eq rfl
  | press b picked => cases b with
    | cancel =>
      simp only [perform, onForm]
      cases a.dialog.form with
      | none => exact addsNoError_of_log_eq rfl
      | some form => exact addsNoError_concat rfl (by decide)
    | _ => cases h
  | _ => cases h

/-- A gesture that presses none of the three buttons, and does not close the dialog, is quiet. -/
theorem quiet_perform (h : a.outcome g = .unpressed) (hopen : g.closes = false) :
    Quiet a (a.perform g).app := by
  have hsame : Quiet a a := .refl a
  cases g with
  | submitLine line =>
    unfold perform
    simp only
    split
    · exact hsame
    · have hline : Quiet a { a with commandLine := line } := ⟨rfl, hsame.log⟩
      rw [app_react]
      exact hline.submit
  | pressCommand c =>
    unfold perform
    simp only
    split
    · exact hsame
    · exact hsame.runCommand c
  | runCommand c => exact hsame.runCommand c
  | chooseTab tab =>
    refine quiet_onForm a true fun form hstatus => ⟨?_, hsame.log⟩
    show (a.dialog.turnTo tab).status = a.dialog.status
    unfold Dialog.turnTo Dialog.status
    cases a.dialog.form <;> rfl
  | press b picked =>
    rcases a.outcome_press b picked with ⟨-, hnothing⟩ | ⟨form, -, houtcome, -⟩
    · rw [hnothing]
      exact hsame
    · have hb : b ≠ .cancel := by
        rintro rfl
        cases hopen
      exact absurd (houtcome.symm.trans h) (a.pressOutcome_ne_unpressed form picked hb)
  | typeInto box text submit =>
    refine quiet_onForm a _ fun form hstatus => ?_
    have htyped := hsame.typeInto hstatus box text
    simp only [app_react]
    split
    · exact htyped.enter
    · exact htyped
  | enter => exact hsame.enter
  | add k =>
    refine quiet_onForm a _ fun form hstatus => ?_
    rw [app_react]
    exact hsame.addLayer hstatus k
  | toggle name nth =>
    refine quiet_onForm a _ fun form hstatus => ?_
    split
    · exact hsame.setForm hstatus
    · exact hsame
  | closeDialog => cases hopen
  | files command => exact ⟨rfl, addsNoError_of_log_eq rfl⟩
  | miss => exact hsame

/-! ## Runs -/

/-- The dialog stays open all along, and no press of Import, Export or OK is carried out. -/
def Undisturbed (a : App) : List Gesture → Prop
  | [] => True
  | g :: gestures => a.outcome g = .unpressed ∧ (a.perform g).app.dialog.isOpen = true ∧
    (a.perform g).app.Undisturbed gestures

theorem undisturbed_concat {gestures : List Gesture} :
    a.Undisturbed (gestures ++ [g]) ↔ a.Undisturbed gestures ∧
      (a.run gestures).outcome g = .unpressed ∧
      ((a.run gestures).perform g).app.dialog.isOpen = true := by
  induction gestures generalizing a with
  | nil => simp [Undisturbed, run]
  | cons g' gestures ih => simp only [List.cons_append, Undisturbed, ih, run_cons, and_assoc]

/-- What leaves the dialog open without a press leaves the status as it is. -/
theorem status_perform_of_isOpen (h : a.outcome g = .unpressed)
    (hopen : (a.perform g).app.dialog.isOpen = true) :
    (a.perform g).app.dialog.status = a.dialog.status := by
  refine (quiet_perform h (eq_false_of_ne_true fun hcloses => ?_)).status
  rw [Dialog.isOpen, form_of_closes hcloses] at hopen
  cases hopen

theorem status_run_of_undisturbed {gestures : List Gesture} (h : a.Undisturbed gestures) :
    (a.run gestures).dialog.status = a.dialog.status := by
  induction gestures generalizing a with
  | nil => rfl
  | cons g gestures ih =>
    obtain ⟨houtcome, hopen, hlater⟩ := h
    rw [run_cons, ih hlater, status_perform_of_isOpen houtcome hopen]

/-- The status is the failure of the last press since the dialog was opened, if that failed. -/
theorem status_run (hclosed : a.dialog.form = none) (gestures : List Gesture) (message : String) :
    (a.run gestures).dialog.status = some message ↔
      ∃ before b picked after, gestures = before ++ .press b picked :: after ∧
        (a.run before).outcome (.press b picked) = .failed message ∧
        ((a.run before).perform (.press b picked)).app.Undisturbed after := by
  constructor
  · -- by induction on the gestures from the last one
    intro h
    induction gestures using List.reverseRecOn with
    | nil =>
      rw [show (a.run []).dialog.status = _ from Dialog.status_of_closed hclosed] at h
      cases h
    | append_singleton gestures g ih =>
      rw [run_append] at h
      change ((a.run gestures).perform g).app.dialog.status = some message at h
      have hopen := Dialog.isOpen_of_status h
      cases houtcome : (a.run gestures).outcome g with
      | failed other =>
        obtain ⟨form, b, picked, rfl, -⟩ := exists_press houtcome nofun
        obtain ⟨form', -, hshown, -⟩ := failed_perform houtcome
        rw [Dialog.status, hshown] at h
        cases h
        exact ⟨gestures, b, picked, [], rfl, houtcome, trivial⟩
      | passed =>
        rw [(passed_perform houtcome).1] at h
        cases h
      | unpressed =>
        rw [status_perform_of_isOpen houtcome hopen] at h
        obtain ⟨before, b, picked, after, rfl, hfailed, hafter⟩ := ih h
        refine ⟨before, b, picked, after ++ [g], by simp, hfailed, undisturbed_concat.2 ?_⟩
        rw [run_append] at houtcome hopen
        exact ⟨hafter, houtcome, hopen⟩
  · rintro ⟨before, b, picked, after, rfl, hfailed, hafter⟩
    obtain ⟨form, -, hshown, -⟩ := failed_perform hfailed
    rw [run_append, run_cons, status_run_of_undisturbed hafter, Dialog.status, hshown]
    rfl

/-- **The dialog shows the failure of the last press**: after every run, the status of an open
    dialog is a message exactly if the last press of Import, Export or OK that was carried out since
    the dialog was opened has failed with this message. Such a press leaves the form and the current
    profile as they were, keeps the dialog open, and logs the message as its only entry. A press
    that succeeds, or for which no path is picked, leaves no status and logs no error. Everything
    else logs no error, either, and leaves the status as it is, unless it closes the dialog. A
    closed dialog has no status. -/
theorem status_of_last_press (store : Store) (started : Timestamp) (files : FileTree)
    (gestures : List Gesture) :
    let start := App.start store started files
    let a := start.run gestures
    (a.dialog.form = none → a.dialog.status = none) ∧
      (∀ message, a.dialog.status = some message ↔
        ∃ before b picked after, gestures = before ++ .press b picked :: after ∧
          (start.run before).outcome (.press b picked) = .failed message ∧
          ((start.run before).perform (.press b picked)).app.Undisturbed after) ∧
      ∀ g, let a' := (a.perform g).app
        (∀ message, a.outcome g = .failed message →
          ∃ form, a.dialog.form = some form ∧
            a'.dialog.form = some { form with status := some message } ∧
            a'.current = a.current ∧ a'.log = a.log ++ [⟨.error, message⟩]) ∧
        (a.outcome g = .passed → a'.dialog.status = none ∧ a.AddsNoError a') ∧
        (a.outcome g = .unpressed → a.AddsNoError a' ∧
          if g.closes then a'.dialog.form = none else a'.dialog.status = a.dialog.status) := by
  intro start a
  refine ⟨Dialog.status_of_closed, status_run rfl gestures, fun g =>
    ⟨fun message => failed_perform, passed_perform, fun hunpressed => ?_⟩⟩
  by_cases hcloses : g.closes = true
  · rw [if_pos hcloses]
    exact ⟨addsNoError_of_closes hcloses, form_of_closes hcloses⟩
  · have hquiet := quiet_perform hunpressed (eq_false_of_ne_true hcloses)
    rw [if_neg hcloses]
    exact ⟨hquiet.log, hquiet.status⟩

example (started : Timestamp) :
    ((App.start (.atPath ⟨"f"⟩) started .empty).run [.runCommand .settings]).outcome
      (.press .importFile (some "x")) =
        .failed "Import failed: I/O error on x: No such file or directory (os error 2)" := rfl

end App

end ChipSettings
