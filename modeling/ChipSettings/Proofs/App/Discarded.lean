import ChipSettings.Dialog.View
import ChipSettings.Proofs.App.Documents
import ChipSettings.Proofs.Form.FailedCommit

/-! # Sessions That Are Discarded

  A dialog that is cancelled or closed leaves nothing behind of what was done in it.

  - `Discards a g`: the gesture keeps nothing. No press says that it wrote a file, and nobody
    else changes the files.
  - `Discarded a gestures a'`: what is left after gestures of this kind. The current profile is
    the same, and the files are but for directories that a press of OK has made on its way
    (`discarded_perform`, `discarded_run`).
  - `dialog_of_opens`: a dialog that is opened has a fresh form of the current profile.
  - `discarded_session`: so the application is as before the dialog was opened, and the next
    form is as if it had never been.
-/

namespace ChipSettings

open Files FileTree

/-- Does the gesture run the command that opens the dialog? -/
def Gesture.opens : Gesture → Bool
  | .runCommand .settings => true
  | .pressCommand .settings => true
  | .submitLine line => Command.ofLine? line = some .settings
  | _ => false

namespace App

variable {a a' : App} {g : Gesture}

/-! ## Gestures That Keep Nothing -/

/-- The gesture keeps nothing: no press says that it wrote a file, and nobody else changes the
    files. -/
def Discards (a : App) : Gesture → Prop
  | .press b picked => ∀ path, ¬ a.SaysWritten b picked path
  | .files command => (a.files.perform command).2 = a.files
  | _ => True

/-- No gesture of a run keeps anything. -/
def DiscardsAll (a : App) : List Gesture → Prop
  | [] => True
  | g :: gestures => a.Discards g ∧ (a.perform g).app.DiscardsAll gestures

/-- What is left after gestures that keep nothing: the current profile, and the files. There may
    be new directories above the fixed file if OK was pressed. -/
structure Discarded (a : App) (gestures : List Gesture) (a' : App) : Prop where
  current : a'.current = a.current
  files : GrownBy a.store.currentPath.ancestors a.files a'.files
  untried : (∀ picked, .press .accept picked ∉ gestures) → a'.files = a.files

theorem Discarded.of_eq (hcurrent : a'.current = a.current) (hfiles : a'.files = a.files)
    (gestures : List Gesture) : Discarded a gestures a' where
  current := hcurrent
  files := by
    rw [hfiles]
    exact .refl _ a.files
  untried _ := hfiles

/-- One gesture that keeps nothing. -/
theorem discarded_perform (h : a.Discards g) : Discarded a [g] (a.perform g).app := by
  by_cases hinside : g.staysInside = true
  · have hsame := a.sameOutside_perform hinside
    exact .of_eq hsame.current hsame.files [g]
  · cases g with
    | files command =>
      have hfiles : (a.files.perform command).2 = a.files := h
      exact .of_eq (by rfl) hfiles _
    | press b picked =>
      rcases a.perform_press b picked with hsame | ⟨form, -, -, hperform⟩
      · rw [hsame]
        exact .of_eq (by rfl) (by rfl) _
      · obtain ⟨a', hpress, hpressed⟩ := a.pressed form b picked
        have heq : (a.perform (.press b picked)).app = a' := hperform.trans hpress
        rw [heq]
        -- presses that wrote a file have said so; of the others only OK may have made directories
        cases hpressed with
        | saved picked current files haccept =>
          exact absurd ⟨rfl, congrArg App.log heq⟩ (h a.store.currentPath)
        | exported picked files hexport =>
          exact absurd ⟨rfl, congrArg App.log heq⟩ (h (pathOf picked))
        | saveFailed picked error files haccept =>
          rcases Editor.accept_error haccept with ⟨-, -, rfl⟩ | ⟨-, hpersist⟩
          · exact .of_eq (by rfl) (by rfl) _
          · refine ⟨rfl, (Store.persistCurrent_error hpersist).1, fun huntried => ?_⟩
            exact absurd (List.mem_singleton_self _) (huntried picked)
        | cancelled picked => exact .of_eq (by rfl) (by rfl) _
        | unpicked b hfile => exact .of_eq (by rfl) (by rfl) _
        | exportFailed picked error hexport => exact .of_eq (by rfl) (by rfl) _
        | imported picked e himport => exact .of_eq (by rfl) (by rfl) _
        | importFailed picked error himport => exact .of_eq (by rfl) (by rfl) _
    | _ => exact absurd rfl hinside

/-- A run of gestures that keep nothing. -/
theorem discarded_run {gestures : List Gesture} (h : a.DiscardsAll gestures) :
    Discarded a gestures (a.run gestures) := by
  induction gestures generalizing a with
  | nil => exact .of_eq (by rfl) (by rfl) []
  | cons g gestures ih =>
    have hfirst := discarded_perform h.1
    have hlater := ih h.2
    have hfiles := hlater.files
    rw [store_perform] at hfiles
    refine ⟨hlater.current.trans hfirst.current, hfirst.files.trans hfiles, fun huntried => ?_⟩
    -- neither the first gesture nor any later one is a press of OK
    have hothers := hlater.untried fun picked hmem =>
      huntried picked (List.mem_cons_of_mem g hmem)
    have hone := hfirst.untried fun picked hmem =>
      huntried picked (List.mem_singleton.1 hmem ▸ List.mem_cons_self)
    exact hothers.trans hone

theorem discardsAll_append {before after : List Gesture} (hbefore : a.DiscardsAll before)
    (hafter : (a.run before).DiscardsAll after) : a.DiscardsAll (before ++ after) := by
  induction before generalizing a with
  | nil => exact hafter
  | cons g before ih => exact ⟨hbefore.1, ih hbefore.2 hafter⟩

/-! ## Closing the Dialog -/

/-- A gesture that closes the dialog keeps nothing, and no form is left. -/
theorem discards_of_closes (h : g.closes = true) :
    a.Discards g ∧ (a.perform g).app.dialog.form = none := by
  refine ⟨?_, form_of_closes h⟩
  cases g with
  | closeDialog => trivial
  | press b picked => cases b with
    | cancel => exact fun path hwritten => hwritten
    | _ => cases h
  | _ => cases h

/-! ## Opening the Dialog -/

/-- A line that names a command is not blank. -/
theorem isEmpty_trim_of_ofLine? {line : String} {c : Command}
    (h : Command.ofLine? line = some c) : (Text.trim line).isEmpty = false := by
  cases hempty : (Text.trim line).isEmpty with
  | false => rfl
  | true =>
    rw [Command.ofLine?, String.isEmpty_iff.1 hempty] at h
    cases h

/-- A closed dialog opens on a fresh form of the current profile. -/
theorem dialog_of_opens (hclosed : a.dialog.form = none) (h : g.opens = true) :
    (a.perform g).app.dialog = a.dialog.openOn a.current := by
  have hshut : a.dialog.isOpen = false := by
    rw [Dialog.isOpen, hclosed]
    rfl
  -- all three ways of opening run the command, on what they leave of the application
  have hrun {a' : App} (hdialog : a'.dialog = a.dialog) (hcurrent : a'.current = a.current) :
      (a'.runCommand .settings).dialog = a.dialog.openOn a.current := by
    simp only [runCommand, say, hdialog, hcurrent, hshut, Bool.false_eq_true, if_false]
  cases g with
  | runCommand c => exact hrun rfl rfl
  | pressCommand c =>
    cases c
    simp only [perform, hshut, Bool.false_eq_true, if_false]
    exact hrun rfl rfl
  | submitLine line =>
    have hline : Command.ofLine? line = some .settings := of_decide_eq_true h
    simp only [perform, hshut, submit, isEmpty_trim_of_ofLine? hline, hline, Bool.false_eq_true,
      if_false]
    exact hrun rfl rfl
  | _ => cases h

/-! ## Discarded Sessions -/

/-- A closed application that differs from another one only in what a discarded session may
    change. -/
theorem eq_of_parts {more : List LogEntry} (hclosed : a.dialog.form = none)
    (hclosed' : a'.dialog.form = none) (hstore : a'.store = a.store)
    (hcurrent : a'.current = a.current) (hline : a'.commandLine = a.commandLine)
    (hlog : a.log ++ more = a'.log) :
    a' = { a with
      dialog := { a.dialog with tab := a'.dialog.tab }
      log := a.log ++ more
      files := a'.files } := by
  obtain ⟨store, current, ⟨tab, form⟩, line, log, files⟩ := a
  obtain ⟨store', current', ⟨tab', form'⟩, line', log', files'⟩ := a'
  cases hclosed
  cases hclosed'
  cases hstore
  cases hcurrent
  cases hline
  cases hlog
  rfl

/-- **A discarded session leaves no trace**: in any application that was started and used and
    whose dialog is closed, let the dialog be opened and worked with in any way that writes no
    file, and then be cancelled or closed. The application is as before, but for the page that
    the dialog shows first, entries in the log, and directories above the fixed file that a
    press of OK may have made. The next form is that of the current profile: no edit, no import
    and no failure shows in it. -/
theorem discarded_session (store : Store) (started : Timestamp) (files : FileTree)
    (before session : List Gesture) (closing : Gesture)
    (hclosed : ((start store started files).run before).dialog.form = none)
    (hdiscards : ((start store started files).run before).DiscardsAll session)
    (hclosing : closing.closes = true) :
    let a := (start store started files).run before
    let a' := a.run (session ++ [closing])
    (∃ tab more files',
      a' = { a with dialog := { a.dialog with tab }, log := a.log ++ more, files := files' } ∧
      GrownBy a.store.currentPath.ancestors a.files files' ∧
      ((∀ picked, .press .accept picked ∉ session) → files' = a.files)) ∧
    ∀ opening : Gesture, opening.opens = true →
      (a'.perform opening).app.dialog.form = some ⟨.ofProfile a.current, none, none⟩ ∧
      (a'.perform opening).app.dialog.widgets =
        View.form a'.dialog.tab ⟨.ofProfile a.current, none, none⟩ ∧
      (Editor.ofProfile a.current).invalidFields = [] := by
  intro a a'
  have hends : a' = ((a.run session).perform closing).app := run_append a session [closing]
  obtain ⟨hkeeps, hshut⟩ : (a.run session).Discards closing ∧
    ((a.run session).perform closing).app.dialog.form = none := discards_of_closes hclosing
  -- the run as a whole keeps nothing, and the dialog is closed after it
  have hleft : Discarded a (session ++ [closing]) a' :=
    discarded_run (discardsAll_append hdiscards ⟨hkeeps, trivial⟩)
  have hform : a'.dialog.form = none := hends ▸ hshut
  have hstore : a'.store = a.store := a.store_run _
  have hline : a.commandLine = "" := commandLine_run store started files before
  have hline' : a'.commandLine = "" := by
    rw [← commandLine_run store started files (before ++ (session ++ [closing])), run_append]
  obtain ⟨more, hlog⟩ := a.log_run (session ++ [closing])
  constructor
  · refine ⟨a'.dialog.tab, more, a'.files, ?_, hleft.files, fun huntried => ?_⟩
    · exact eq_of_parts hclosed hform hstore hleft.current (hline'.trans hline.symm) hlog
    · refine hleft.untried fun picked hmem => ?_
      rcases List.mem_append.1 hmem with hmem | hmem
      · exact huntried picked hmem
      · rw [← List.mem_singleton.1 hmem] at hclosing
        cases hclosing
  · intro opening hopening
    have hdialog := dialog_of_opens hform hopening
    rw [hleft.current] at hdialog
    rw [hdialog]
    exact ⟨rfl, rfl, rfl⟩

/-- An application with an empty directory, after a line that names no command. -/
def usedApp : App :=
  (App.start (.atPath ⟨"d/f"⟩) ⟨2025, 1, 31, 12, 0, 0⟩ .empty).run [.submitLine "help"]

/-- A radius is typed that is no number, which disables OK; a layer is added; the command is run
    once more, an import fails, and nothing can be exported. -/
def fruitlessSession : List Gesture :=
  [.runCommand .settings, .typeInto (.field (.measure .punchRadius)) "wide" true,
    .chooseTab .layers, .typeInto (.layerName .flow) "Gas" true, .runCommand .settings,
    .press .importFile (some "missing"), .press .exportFile none]

/-- This session is cancelled, and the dialog opened again from the command line. -/
theorem discarded_session_fruitless :
    (usedApp.run (fruitlessSession ++ [.press .cancel none])).files = usedApp.files ∧
      (usedApp.run (fruitlessSession ++ [.press .cancel none])).current = usedApp.current ∧
      ((usedApp.run (fruitlessSession ++ [.press .cancel none])).perform
        (.submitLine " micadosettings ")).app.dialog.form =
          some ⟨.ofProfile usedApp.current, none, none⟩ := by
  have hclosed : usedApp.dialog.form = none := rfl
  have hdiscards : usedApp.DiscardsAll fruitlessSession :=
    ⟨trivial, trivial, trivial, trivial, trivial, fun _ h => h, fun _ h => (nomatch h.1), trivial⟩
  obtain ⟨⟨tab, more, files', hleft, -, huntried⟩, hnext⟩ :=
    discarded_session (.atPath ⟨"d/f"⟩) ⟨2025, 1, 31, 12, 0, 0⟩ .empty [.submitLine "help"]
      fruitlessSession (.press .cancel none) hclosed hdiscards rfl
  have hopens : (Gesture.submitLine " micadosettings ").opens = true := by decide
  have hfiles := congrArg App.files hleft
  have hcurrent := congrArg App.current hleft
  exact ⟨hfiles.trans (huntried fun picked => by simp [fruitlessSession]), hcurrent,
    (hnext _ hopens).1⟩

end App

end ChipSettings
