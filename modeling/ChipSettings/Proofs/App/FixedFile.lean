import ChipSettings.Proofs.App.Documents
import ChipSettings.Proofs.Files.Ancestors
import ChipSettings.Proofs.Form.FailedCommit

/-! # The Current Profile and the Fixed File

  As long as nobody else writes the fixed file, it and the current profile change together.

  - `no_file_of_persistCurrent_error`: where the fixed file could not be written, there is
    none, whatever directories were made.
  - `Saves a g`: the gesture presses OK, and the application says that the settings were
    saved. `Spares a g`: the gesture is no change of the fixed file from another side.
  - `unchanged_of_not_saves`: nothing but such a press changes the current profile or the fixed
    file. `holdsCurrent_of_saves`: after it, the file holds the document of the profile.
  - `saved_is_current`: the same over every run.
-/

namespace ChipSettings

open Files FileTree

/-! ## The Fixed File after a Failure -/

namespace Store

variable {store : Store} {t t' : FileTree} {p : Profile} {error : SettingsError}

/-- Where the fixed file could not be written, there is no such file. -/
theorem no_file_of_persistCurrent_error (hcodec : store.codec = .xml)
    (h : store.persistCurrent t p = (.error error, t')) (b : ByteArray) :
    t'.find? store.currentPath ≠ some (.file b) := by
  intro hfile
  rcases persistCurrent_eq_error h with hprepare | ⟨-, hexport⟩
  · -- a file lies in directories, and one of those above the fixed file is missing
    obtain ⟨first, above, cause, hancestors, -, hmake, -⟩ := prepareDirectory_eq_error hprepare
    obtain ⟨dir, hdir, hmissing⟩ := exists_of_makeDirectories_error hmake
    rw [isDirectory_of_mem_ancestors hfile (hancestors ▸ hdir)] at hmissing
    cases hmissing
  · -- a file that is there can be written
    obtain ⟨name, dir, hwrites, -⟩ := find?_eq_file_iff.1 hfile
    rcases or_of_bind_eq_error hexport with hserialize | ⟨text, -, hwrite⟩
    · rw [hcodec] at hserialize
      cases hserialize
    · obtain ⟨written, hwritten⟩ := hwrites.write text.toUTF8
      obtain ⟨cause, hrefused, -⟩ := exists_of_mapError_eq_error hwrite
      cases hwritten.symm.trans hrefused

/-- A failure to write the fixed file leaves what it holds as it is. -/
theorem find?_file_iff_of_persistCurrent_error (hcodec : store.codec = .xml)
    (h : store.persistCurrent t p = (.error error, t')) (b : ByteArray) :
    t'.find? store.currentPath = some (.file b) ↔ t.find? store.currentPath = some (.file b) := by
  have hnone := no_file_of_persistCurrent_error hcodec h b
  constructor
  · exact fun hfile => absurd hfile hnone
  · exact fun hfile => absurd ((persistCurrent_error h).1.grown.find?_file hfile) hnone

end Store

namespace App

variable {a : App} {g : Gesture}

/-! ## Gestures and the Fixed File -/

/-- What the fixed file holds, if it is there. -/
def fixedContent (a : App) : Option ByteArray := (a.files.read a.store.currentPath).toOption

/-- The fixed file holds the document of the current profile. -/
def HoldsCurrent (a : App) : Prop :=
  ∃ text, Codec.xml.serialize a.current = .ok text ∧ a.fixedContent = some text.toUTF8

/-- The gesture presses OK while this is enabled, and the log gains just the entry which says
    that the settings were saved. -/
def Saves (a : App) (g : Gesture) : Prop :=
  ∃ picked form, g = .press .accept picked ∧ a.dialog.form = some form ∧
    Button.accept.enabled form.editor = true ∧
    (a.perform g).app.log =
      a.log ++ [⟨.info, "Saved settings to " ++ a.store.currentPath.text⟩]

/-- The gesture does not change the fixed file from another side: it is no outside change of
    the files, and no export to a path that names this file. -/
def Spares (a : App) : Gesture → Prop
  | .files command => (a.files.perform command).2 = a.files
  | .press .exportFile (some picked) => ¬ a.files.SameFile (pathOf picked) a.store.currentPath
  | _ => True

/-- No gesture of a run changes the fixed file from another side. -/
def SparesAll (a : App) : List Gesture → Prop
  | [] => True
  | g :: gestures => a.Spares g ∧ (a.perform g).app.SparesAll gestures

theorem fixedContent_eq_some_iff {b : ByteArray} :
    a.fixedContent = some b ↔ a.files.find? a.store.currentPath = some (.file b) := by
  rw [fixedContent, ← read_eq_ok_iff]
  cases a.files.read a.store.currentPath with
  | error e => simp [Except.toOption]
  | ok found => simp [Except.toOption]

/-- The fixed file is the same if it is found in both trees with the same bytes. -/
theorem fixedContent_congr {a' : App} (hstore : a'.store = a.store)
    (h : ∀ b, a'.files.find? a.store.currentPath = some (.file b) ↔
      a.files.find? a.store.currentPath = some (.file b)) : a'.fixedContent = a.fixedContent := by
  apply Option.ext
  intro b
  rw [fixedContent_eq_some_iff, fixedContent_eq_some_iff, hstore, h]

/-! ## One Gesture -/

/-- A gesture that does not save leaves the current profile and the fixed file as they are,
    unless the file is changed from another side. -/
theorem unchanged_of_not_saves (hcodec : a.store.codec = .xml) (hspares : a.Spares g)
    (hsaves : ¬ a.Saves g) :
    (a.perform g).app.current = a.current ∧ (a.perform g).app.fixedContent = a.fixedContent := by
  by_cases hinside : g.staysInside = true
  · have hsame := a.sameOutside_perform hinside
    refine ⟨hsame.current, fixedContent_congr hsame.store fun b => ?_⟩
    rw [hsame.files]
  · cases g with
    | files command =>
      refine ⟨rfl, fixedContent_congr rfl fun b => ?_⟩
      show (a.files.perform command).2.find? _ = _ ↔ _
      rw [show (a.files.perform command).2 = a.files from hspares]
    | press b picked =>
      rcases a.perform_press b picked with hsame | ⟨form, hopen, henabled, hperform⟩
      · rw [hsame]
        exact ⟨rfl, rfl⟩
      · obtain ⟨a', hpress, hpressed⟩ := a.pressed form b picked
        have hlog : (a.perform (.press b picked)).app = a' := hperform.trans hpress
        rw [hlog]
        cases hpressed with
        | cancelled picked => exact ⟨rfl, rfl⟩
        | saved picked current files haccept =>
          exact absurd ⟨picked, form, rfl, hopen, henabled, congrArg App.log hlog⟩ hsaves
        | saveFailed picked error files haccept =>
          refine ⟨rfl, fixedContent_congr rfl fun b => ?_⟩
          rcases Editor.accept_error haccept with ⟨-, -, rfl⟩ | ⟨-, hpersist⟩
          · exact Iff.rfl
          · exact Store.find?_file_iff_of_persistCurrent_error hcodec hpersist b
        | unpicked b hfile => exact ⟨rfl, rfl⟩
        | exported picked files hexport =>
          refine ⟨rfl, fixedContent_congr rfl fun b => ?_⟩
          obtain ⟨-, hwritten⟩ := Editor.exportTo_ok hexport
          obtain ⟨text, -, hwrite⟩ := exists_of_bind_eq_ok hwritten
          exact find?_file_iff_of_write (eq_ok_of_mapError_eq_ok hwrite) hspares
        | exportFailed picked error hexport => exact ⟨rfl, rfl⟩
        | imported picked e himport => exact ⟨rfl, rfl⟩
        | importFailed picked error himport => exact ⟨rfl, rfl⟩
    | _ => exact absurd rfl hinside

/-- After a gesture that saves, the fixed file holds the document of the current profile. -/
theorem holdsCurrent_of_saves (hcodec : a.store.codec = .xml) (hsaves : a.Saves g) :
    (a.perform g).app.HoldsCurrent := by
  obtain ⟨picked, form, rfl, hopen, henabled, hlog⟩ := hsaves
  have hperform : (a.perform (.press .accept picked)).app = a.press form .accept picked := by
    simp only [perform, onForm, hopen, if_true, if_pos henabled]
  obtain ⟨a', hpress, hpressed⟩ := a.pressed form .accept picked
  rw [hperform, hpress] at hlog ⊢
  cases hpressed with
  | saved picked current files haccept =>
    obtain ⟨-, -, hpersist⟩ := Editor.accept_ok haccept
    obtain ⟨text, hserialize, hfile⟩ := Store.file_of_persistCurrent hpersist
    rw [hcodec] at hserialize
    exact ⟨text, hserialize, fixedContent_eq_some_iff.2 hfile⟩
  | saveFailed picked error files haccept =>
    -- a failure is not logged as information
    cases congrArg (List.map LogEntry.kind) (List.append_cancel_left hlog)
  | unpicked b hfile => exact absurd hfile (by decide)

/-- Every gesture that spares the fixed file keeps it that way. -/
theorem HoldsCurrent.perform (h : a.HoldsCurrent) (hcodec : a.store.codec = .xml)
    (hspares : a.Spares g) : (a.perform g).app.HoldsCurrent := by
  by_cases hsaves : a.Saves g
  · exact holdsCurrent_of_saves hcodec hsaves
  · obtain ⟨hcurrent, hcontent⟩ := unchanged_of_not_saves hcodec hspares hsaves
    unfold HoldsCurrent
    rw [hcurrent, hcontent]
    exact h

/-! ## Runs -/

/-- So does every run. -/
theorem HoldsCurrent.run {gestures : List Gesture} (h : a.HoldsCurrent)
    (hcodec : a.store.codec = .xml) (hspares : a.SparesAll gestures) :
    (a.run gestures).HoldsCurrent := by
  induction gestures generalizing a with
  | nil => exact h
  | cons g gestures ih =>
    exact ih (h.perform hcodec hspares.1) (by rwa [store_perform]) hspares.2

theorem sparesAll_append {before after : List Gesture} (h : a.SparesAll (before ++ after)) :
    (a.run before).SparesAll after := by
  induction before generalizing a with
  | nil => exact h
  | cons g before ih => exact ih h.2

/-- **The current profile and the fixed file move together**: over every run from the start, with
    any files, in which nobody else changes the fixed file, neither of the two changes in a
    step that does not save. Right after a step that saves, and in every later state, the fixed
    file holds exactly the document of the profile that is current then. -/
theorem saved_is_current (fixed : Path) (started : Timestamp) (files : FileTree)
    (before after : List Gesture) (g : Gesture)
    (hspares : (App.start (.atPath fixed) started files).SparesAll (before ++ g :: after)) :
    let a := (App.start (.atPath fixed) started files).run before
    let a' := (a.perform g).app
    (¬ a.Saves g → a'.current = a.current ∧ a'.fixedContent = a.fixedContent) ∧
      (a.Saves g → a'.HoldsCurrent ∧ (a'.run after).HoldsCurrent) := by
  intro a a'
  have hcodec : a.store.codec = .xml := by
    show ((App.start (.atPath fixed) started files).run before).store.codec = .xml
    rw [store_run]
    rfl
  obtain ⟨hg, hafter⟩ := sparesAll_append hspares
  refine ⟨unchanged_of_not_saves hcodec hg, fun hsaves => ?_⟩
  have hholds : a'.HoldsCurrent := holdsCurrent_of_saves hcodec hsaves
  exact ⟨hholds, hholds.run (by rwa [store_perform]) hafter⟩

/-- The settings are accepted as they are, and then the dialog is opened again, exports them to
    another file and is closed: the fixed file still holds the document of the defaults. -/
theorem saved_is_current_reopened :
    let a := (App.start (.atPath ⟨"f"⟩) ⟨2025, 1, 31, 12, 0, 0⟩ .empty).run
      [.runCommand .settings, .press .accept none, .runCommand .settings,
        .press .exportFile (some "x"), .closeDialog]
    a.HoldsCurrent ∧ a.fixedContent.isSome = true := by
  intro a
  have hother (t : FileTree) : ¬ t.SameFile (pathOf "x") ⟨"f"⟩ := by
    rintro ⟨name, dir, hx, hf⟩
    have hnamex : [Step.down ['x']] = [.down name] := (locateNew_eq_ok hx.place).2.2.2
    have hnamef : [Step.down ['f']] = [.down name] := (locateNew_eq_ok hf.place).2.2.2
    cases hnamex
    cases hnamef
  have hspares : (App.start (.atPath ⟨"f"⟩) ⟨2025, 1, 31, 12, 0, 0⟩ .empty).SparesAll
      ([.runCommand .settings] ++ .press .accept none :: [.runCommand .settings,
        .press .exportFile (some "x"), .closeDialog]) :=
    ⟨trivial, trivial, trivial, hother _, trivial, trivial⟩
  have hpersist (p : Profile) : ∃ t', (Store.atPath ⟨"f"⟩).persistCurrent .empty p =
      (.ok (), t') := ⟨_, rfl⟩
  obtain ⟨t', hpersist⟩ := hpersist ((Editor.ofProfile .default).commitInto .default)
  have hgate : (Editor.ofProfile .default).canCommit = true := rfl
  have haccept := Editor.accept_of_canCommit hgate hpersist
  have hsaves : ((App.start (.atPath ⟨"f"⟩) ⟨2025, 1, 31, 12, 0, 0⟩ .empty).run
      [.runCommand .settings]).Saves (.press .accept none) := by
    have hform : ((App.start (.atPath ⟨"f"⟩) ⟨2025, 1, 31, 12, 0, 0⟩ .empty).run
        [.runCommand .settings]).dialog.form = some ⟨.ofProfile .default, none, none⟩ := rfl
    exact ⟨none, _, rfl, hform, hgate, (saysWritten_of_accept hform haccept).2⟩
  obtain ⟨-, hholds⟩ := (saved_is_current ⟨"f"⟩ _ .empty _ _ _ hspares).2 hsaves
  rw [← run_cons, ← run_append] at hholds
  refine ⟨hholds, ?_⟩
  obtain ⟨text, -, hcontent⟩ := hholds
  exact Option.isSome_iff_exists.2 ⟨_, hcontent⟩

end App

end ChipSettings
