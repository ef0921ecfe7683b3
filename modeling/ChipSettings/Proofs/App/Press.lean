import ChipSettings.App
import ChipSettings.Proofs.Form.Commit

/-! # Pressing a Button of the Dialog

  All that a press of an enabled button can do, outcome by outcome.

  - `Pressed a form b picked a'`: the press of `b` leads from `a` to `a'`, one case for each
    outcome.
  - `pressed`: the press that the application carries out is one of these. Proofs about
    presses go through its cases and never unfold the press.
  - `SaysWritten a b picked path`: the press of `b` says that it wrote the file at `path`.
-/

namespace ChipSettings.App

open Files

/-- The application that was told about a failure: the log has an entry, and the dialog stays
    open and shows it. -/
def reported (a : App) (form : Form) (what : String) (error : SettingsError)
    (files : FileTree) : App :=
  { a with
    files
    dialog := { a.dialog with
      form := some { form with status := some (what ++ ": " ++ error.message) } }
    log := a.log ++ [⟨.error, what ++ ": " ++ error.message⟩] }

/-- The application that tells the user something. The dialog is left as given. -/
def told (a : App) (form : Option Form) (message : String) : App :=
  { a with
    dialog := { a.dialog with form }
    log := a.log ++ [⟨.info, message⟩] }

/-- What a press of a button leads to while the dialog shows a form. -/
inductive Pressed (a : App) (form : Form) : Button → Option String → App → Prop where
  /-- The dialog is closed, and its form is gone. -/
  | cancelled (picked : Option String) :
    Pressed a form .cancel picked (a.told none "Settings dialog cancelled, changes discarded")
  /-- The form is current and kept in the fixed file. -/
  | saved (picked : Option String) (current : Profile) (files : FileTree)
      (haccept : form.editor.accept a.store a.current a.files = (.ok current, files)) :
    Pressed a form .accept picked
      ({ a with current, files }.told none ("Saved settings to " ++ a.store.currentPath.text))
  /-- The form could not be kept. -/
  | saveFailed (picked : Option String) (error : SettingsError) (files : FileTree)
      (haccept : form.editor.accept a.store a.current a.files = (.error error, files)) :
    Pressed a form .accept picked (a.reported form "Saving settings failed" error files)
  /-- No path was picked in the file dialog. -/
  | unpicked (b : Button) (hfile : b = .importFile ∨ b = .exportFile) :
    Pressed a form b none (a.setForm { form with status := none })
  /-- The form is written to a file. -/
  | exported (picked : String) (files : FileTree)
      (hexport : form.editor.exportTo a.store a.files (pathOf picked) = .ok files) :
    Pressed a form .exportFile (some picked)
      ({ a with files }.told (some { form with status := none })
        ("Exported settings to " ++ (pathOf picked).text))
  /-- The form could not be written to the file. -/
  | exportFailed (picked : String) (error : SettingsError)
      (hexport : form.editor.exportTo a.store a.files (pathOf picked) = .error error) :
    Pressed a form .exportFile (some picked) (a.reported form "Export failed" error a.files)
  /-- The form is filled from a file. -/
  | imported (picked : String) (e : Editor)
      (himport : form.editor.importFrom a.store a.files (pathOf picked) = .ok e) :
    Pressed a form .importFile (some picked)
      (a.told (some { form with editor := e, status := none })
        ("Imported settings from " ++ (pathOf picked).text ++
          " (press OK to make them current)"))
  /-- The form could not be filled from the file. -/
  | importFailed (picked : String) (error : SettingsError)
      (himport : form.editor.importFrom a.store a.files (pathOf picked) = .error error) :
    Pressed a form .importFile (some picked) (a.reported form "Import failed" error a.files)

/-- The press that is carried out has one of these outcomes. -/
theorem pressed (a : App) (form : Form) (b : Button) (picked : Option String) :
    ∃ a', a.press form b picked = a' ∧ a.Pressed form b picked a' := by
  refine ⟨_, rfl, ?_⟩
  unfold press
  cases b with
  | cancel => exact .cancelled picked
  | accept =>
    simp only
    split
    · next current files haccept => exact .saved picked current files haccept
    · next error files haccept => exact .saveFailed picked error files haccept
  | exportFile =>
    cases picked with
    | none => exact .unpicked .exportFile (.inr rfl)
    | some path =>
      simp only [Option.map_some]
      split
      · next files hexport => exact .exported path files hexport
      · next error hexport => exact .exportFailed path error hexport
  | importFile =>
    cases picked with
    | none => exact .unpicked .importFile (.inl rfl)
    | some path =>
      simp only [Option.map_some]
      split
      · next e himport => exact .imported path e himport
      · next error himport => exact .importFailed path error himport

/-! ## Presses That Write -/

/-- The press of the button says that it wrote the file at the path: the log gains just the
    entry for that. -/
def SaysWritten (a : App) (b : Button) (picked : Option String) (path : Path) : Prop :=
  let log := (a.perform (.press b picked)).app.log
  match b with
  | .accept =>
    path = a.store.currentPath ∧ log = a.log ++ [⟨.info, "Saved settings to " ++ path.text⟩]
  | .exportFile =>
    picked.map pathOf = some path ∧
      log = a.log ++ [⟨.info, "Exported settings to " ++ path.text⟩]
  | _ => False

/-- An accept that succeeds says that it wrote the fixed file. -/
theorem saysWritten_of_accept {a : App} {form : Form} {picked : Option String} {q : Profile}
    {files : FileTree} (hopen : a.dialog.form = some form)
    (haccept : form.editor.accept a.store a.current a.files = (.ok q, files)) :
    a.SaysWritten .accept picked a.store.currentPath := by
  have henabled : Button.accept.enabled form.editor = true := (Editor.accept_ok haccept).1
  have hperform : (a.perform (.press .accept picked)).app = a.press form .accept picked := by
    simp only [perform, onForm, hopen, if_true, if_pos henabled]
  refine ⟨rfl, ?_⟩
  obtain ⟨a', hpress, hpressed⟩ := a.pressed form .accept picked
  rw [hperform, hpress]
  cases hpressed with
  | saved picked q files haccept' => rfl
  | saveFailed picked error files haccept' =>
    rw [haccept] at haccept'
    cases haccept'
  | unpicked b hfile => exact absurd hfile (by decide)

end ChipSettings.App
