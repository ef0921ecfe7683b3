import ChipSettings.Dialog.View
import ChipSettings.Proofs.App.Failures
import ChipSettings.Proofs.Form.History

/-! # Buttons That Commit the Form

  OK and Export are enabled where the form may be committed, on whatever page, so that the editor
  never has to refuse what they ask for.

  - `View.button_mem_form` and `View.hint_mem_form`: when a button and the hint are on screen.
  - `App.status_ne_hint`: no failure that is shown reads as the hint.
  - `commit_buttons`: the buttons, the hint and the gate of the editor agree in every state.
-/

namespace ChipSettings

open Files

/-! ## What Is on a Page -/

namespace Tab

/-- Every field is on some page. -/
theorem exists_shows (f : Field) : ∃ tab : Tab, tab.shows (.field f) = true := by
  have hany : Tab.all.any (fun tab => tab.shows (.field f)) = true := by
    cases f with
    | punchBarNumber => rfl
    | measure m => cases m <;> rfl
  obtain ⟨tab, -, htab⟩ := List.any_eq_true.1 hany
  exact ⟨tab, htab⟩

end Tab

/-- The form may be committed if no page shows a field that is invalid. -/
theorem Editor.canCommit_iff_pages {e : Editor} : e.canCommit = true ↔
    ∀ (tab : Tab) (f : Field), tab.shows (.field f) = true → e.verdicts f = .valid := by
  rw [canCommit_iff]
  refine ⟨fun h tab f _ => h f, fun h f => ?_⟩
  obtain ⟨tab, htab⟩ := Tab.exists_shows f
  exact h tab f htab

/-- A button that commits the form is enabled where the form may be committed. -/
theorem Button.enabled_of_commits {b : Button} (h : b.commits = true) (e : Editor) :
    b.enabled e = e.canCommit := by
  rw [enabled, h]
  rfl

/-- A button is found by its caption. -/
theorem Button.ofCaption?_caption (b : Button) : ofCaption? b.caption = some b := by
  cases b <;> rfl

namespace View

variable {e : Editor} {tab : Tab} {w : Widget}

/-- Whatever is on a page belongs to a field or a layer list, or is a heading. -/
theorem mem_page (h : w ∈ page e tab) :
    (∃ f, w ∈ field e f) ∨ (∃ k, w ∈ checklist e k) ∨
      ∃ s ∈ tab.sections, ∃ heading ∈ s.heading, w = .label heading := by
  have hsections (h : w ∈ tab.sections.flatMap (fieldSection e)) :
      (∃ f, w ∈ field e f) ∨ (∃ k, w ∈ checklist e k) ∨
        ∃ s ∈ tab.sections, ∃ heading ∈ s.heading, w = .label heading := by
    obtain ⟨s, hs, h⟩ := List.mem_flatMap.1 h
    rcases List.mem_append.1 h with hlabel | hfield
    · obtain ⟨heading, hheading, rfl⟩ := List.mem_map.1 hlabel
      exact .inr (.inr ⟨s, hs, heading, Option.mem_toList.1 hheading, rfl⟩)
    · obtain ⟨f, -, hf⟩ := List.mem_flatMap.1 hfield
      exact .inl ⟨f, hf⟩
  cases tab with
  | drawing => exact hsections h
  | routing => exact hsections h
  | layers =>
    obtain ⟨k, -, hk⟩ := List.mem_flatMap.1 h
    exact .inr (.inl ⟨k, hk⟩)

/-- The buttons of a page add layers. -/
theorem caption_of_mem_page {caption : String} {enabled : Bool}
    (h : .button caption enabled ∈ page e tab) : caption = addCaption := by
  rcases mem_page h with ⟨f, hf⟩ | ⟨k, hk⟩ | ⟨s, -, heading, -, hw⟩
  · unfold field at hf
    split at hf <;> simp at hf
  · simp only [checklist, List.mem_cons, List.mem_map, reduceCtorEq, false_or, and_false,
      exists_false, or_false, Widget.button.injEq] at hk
    exact hk.1
  · cases hw

/-- The hint is not on a page. -/
theorem hint_not_mem_page (e : Editor) (tab : Tab) : .label hint ∉ page e tab := by
  intro h
  rcases mem_page h with ⟨f, hf⟩ | ⟨k, hk⟩ | ⟨s, hs, heading, hheading, hw⟩
  · have hlabel : hint ≠ f.label ++ ":" := by
      cases f with
      | punchBarNumber => decide
      | measure m => cases m <;> decide
    have hfault (fault : Fault) : hint ≠ "⚠ " ++ fault.message := by
      cases fault <;> decide
    unfold field at hf
    split at hf
    · simp [hlabel, hfault] at hf
    · simp [hlabel] at hf
  · have hlabel : hint ≠ k.label := by cases k <;> decide
    simp [checklist, hlabel] at hk
  · have hheadings : ∀ s ∈ tab.sections, ∀ heading ∈ s.heading, heading ≠ hint := by
      cases tab <;> decide
    cases hw
    exact hheadings s hs _ hheading rfl

/-- A button at the foot of the dialog is shown as it is enabled, whatever the page. -/
theorem button_mem_form {form : Form} {b : Button} {enabled : Bool} :
    .button b.caption enabled ∈ View.form tab form ↔ enabled = b.enabled form.editor := by
  have hadd : b.caption ≠ addCaption := by cases b <;> decide
  have hpage : .button b.caption enabled ∉ page form.editor tab := fun h =>
    hadd (caption_of_mem_page h)
  have hcaption {b' : Button} (h : b'.caption = b.caption) : b' = b := by
    have hfound := congrArg Button.ofCaption? h
    rw [Button.ofCaption?_caption, Button.ofCaption?_caption] at hfound
    exact Option.some.inj hfound
  unfold View.form
  simp only [List.mem_append, hpage, or_false, List.mem_map]
  constructor
  · rintro (((⟨t, -, h⟩ | ⟨message, -, h⟩) | h) | ⟨b', -, h⟩)
    · cases h
    · cases h
    · split at h
      · cases h
      · cases List.mem_singleton.1 h
    · obtain ⟨hsame, henabled⟩ := Widget.button.inj h
      rw [← henabled, hcaption hsame]
  · rintro rfl
    exact .inr ⟨b, by cases b <;> decide, rfl⟩

/-- The hint is shown while the form cannot be committed, whatever the page, if no failure reads
    like it. -/
theorem hint_mem_form {form : Form} (h : form.status ≠ some hint) :
    .label hint ∈ View.form tab form ↔ form.editor.canCommit = false := by
  have hstatus : .label hint ∉ form.status.toList.map Widget.label := by
    intro hmem
    obtain ⟨message, hmessage, heq⟩ := List.mem_map.1 hmem
    cases heq
    exact h (Option.mem_toList.1 hmessage)
  unfold View.form
  simp only [List.mem_append, hint_not_mem_page, hstatus, or_false, List.mem_map, reduceCtorEq,
    and_false, exists_false, false_or]
  cases form.editor.canCommit <;> simp

end View

/-! ## Failures and the Hint -/

namespace App

variable {a : App} {form : Form}

/-- What a failure reads like. -/
theorem exists_of_ofResult {α : Type} {what message : String} {result : Except SettingsError α}
    (h : Outcome.ofResult what result = .failed message) : ∃ words, message = what ++ words := by
  cases result with
  | ok a => cases h
  | error e =>
    cases h
    exact ⟨": " ++ e.message, String.append_assoc⟩

/-- No failure reads like the hint. -/
theorem failure_ne_hint {g : Gesture} {message : String} (h : a.outcome g = .failed message) :
    message ≠ View.hint := by
  -- they differ in their first characters
  have hhead {what : String} {c : Char} (hwhat : what.toList.head? = some c) (hc : c ≠ 'F')
      {α : Type} {result : Except SettingsError α}
      (h : Outcome.ofResult what result = .failed message) : message ≠ View.hint := by
    obtain ⟨words, rfl⟩ := exists_of_ofResult h
    intro heq
    have hfirst := congrArg (fun text => text.toList.head?) heq
    simp only [String.toList_append, List.head?_append, hwhat] at hfirst
    exact hc (Option.some.inj hfirst)
  obtain ⟨form, b, picked, -, -, h, -⟩ := exists_press h nofun
  cases b with
  | cancel => cases h
  | accept => exact hhead rfl (by decide) h
  | exportFile => cases picked with
    | none => cases h
    | some path => exact hhead rfl (by decide) h
  | importFile => cases picked with
    | none => cases h
    | some path => exact hhead rfl (by decide) h

/-- The status of a dialog never reads like the hint. -/
theorem status_ne_hint (hclosed : a.dialog.form = none) (gestures : List Gesture) :
    (a.run gestures).dialog.status ≠ some View.hint := by
  intro h
  obtain ⟨before, b, picked, after, -, hfailed, -⟩ := (status_run hclosed gestures _).1 h
  exact failure_ne_hint hfailed rfl

theorem perform_press_of_disabled {b : Button} (hopen : a.dialog.form = some form)
    (hdisabled : b.enabled form.editor = false) (picked : Option String) :
    a.perform (.press b picked) = a.ignore .disabled := by
  simp [perform, onForm, hopen, hdisabled]

theorem perform_press_of_enabled {b : Button} (hopen : a.dialog.form = some form)
    (henabled : b.enabled form.editor = true) (picked : Option String) :
    (a.perform (.press b picked)).app = a.press form b picked := by
  simp [perform, onForm, hopen, henabled]

/-- **The buttons agree with the gate**: while the dialog is open, whatever page it shows, OK and
    Export are enabled exactly if no field on any page has an invalid verdict, and the hint is shown
    exactly if they are disabled. Pressing a disabled one does nothing. Where they are enabled,
    neither an accept nor an export is refused for the sake of fields. -/
theorem commit_buttons (fixed : Path) (started : Timestamp) (files : FileTree)
    (gestures : List Gesture) (form : Form)
    (hopen : ((start (.atPath fixed) started files).run gestures).dialog.form = some form) :
    let a := (start (.atPath fixed) started files).run gestures
    let faultless := ∀ (tab : Tab) (f : Field), tab.shows (.field f) = true →
      form.editor.verdicts f = .valid
    (∀ (tab : Tab) (b : Button), b.commits = true →
      (.button b.caption true ∈ View.form tab form ↔ faultless) ∧
        (.button b.caption false ∈ View.form tab form ↔ ¬ faultless)) ∧
      (∀ tab, .label View.hint ∈ View.form tab form ↔ ¬ faultless) ∧
      (¬ faultless → ∀ b picked, b.commits = true →
        a.perform (.press b picked) = a.ignore .disabled) ∧
      (faultless →
        (∀ b picked, b.commits = true →
          (a.perform (.press b picked)).app = a.press form b picked) ∧
        (∀ fields, (form.editor.accept a.store a.current a.files).1 ≠
          .error (.invalidFields fields)) ∧
        ∀ path fields, form.editor.exportTo a.store a.files path ≠
          .error (.invalidFields fields)) := by
  intro a faultless
  have hgate : form.editor.canCommit = true ↔ faultless := Editor.canCommit_iff_pages
  have hshut : form.editor.canCommit = false ↔ ¬ faultless := by
    rw [← hgate, Bool.not_eq_true]
  have hcodec : ∀ p fields, a.store.codec.serialize p ≠ .error (.invalidFields fields) := by
    rw [show a.store = .atPath fixed from store_run _ gestures]
    exact fun _ _ => nofun
  have hstatus : form.status ≠ some View.hint := by
    have hshown : a.dialog.status = form.status := by
      rw [Dialog.status, hopen]
      rfl
    rw [← hshown]
    exact status_ne_hint rfl gestures
  refine ⟨fun tab b hb => ?_, fun tab => (View.hint_mem_form hstatus).trans hshut,
    fun hfault b picked hb => ?_, fun hfaultless => ⟨fun b picked hb => ?_, fun fields h => ?_,
      fun path fields h => ?_⟩⟩
  · rw [View.button_mem_form, View.button_mem_form, Button.enabled_of_commits hb, eq_comm, hgate,
      eq_comm, hshut]
    exact ⟨.rfl, .rfl⟩
  · exact perform_press_of_disabled hopen
      ((Button.enabled_of_commits hb _).trans (hshut.2 hfault)) picked
  · exact perform_press_of_enabled hopen
      ((Button.enabled_of_commits hb _).trans (hgate.2 hfaultless)) picked
  -- what is refused for the sake of fields has an invalid one
  · exact (Editor.accept_invalidFields hcodec h).1
      (form.editor.invalidFields_eq_nil_iff.2 (hgate.2 hfaultless))
  · exact (Editor.exportTo_invalidFields hcodec h).1
      (form.editor.invalidFields_eq_nil_iff.2 (hgate.2 hfaultless))

/-- A radius of zero is entered, and another page is turned to: there OK is disabled and the hint
    shown. -/
theorem commit_buttons_no_radius :
    let e := ((Editor.ofProfile .default).setText (.measure .punchRadius) "0").leaveField
      (.measure .punchRadius)
    ((App.start (.atPath ⟨"f"⟩) ⟨2025, 1, 31, 12, 0, 0⟩ .empty).run
      [.runCommand .settings, .typeInto (.field (.measure .punchRadius)) "0" true,
        .chooseTab .layers]).dialog = ⟨.layers, some ⟨e, none, none⟩⟩ ∧
      .button "OK" false ∈ View.form .layers ⟨e, none, none⟩ ∧
      .label View.hint ∈ View.form .layers ⟨e, none, none⟩ := by
  intro e
  have hdialog : ((App.start (.atPath ⟨"f"⟩) ⟨2025, 1, 31, 12, 0, 0⟩ .empty).run
      [.runCommand .settings, .typeInto (.field (.measure .punchRadius)) "0" true,
        .chooseTab .layers]).dialog = ⟨.layers, some ⟨e, none, none⟩⟩ := by rfl
  obtain ⟨hbutton, hhint, -⟩ := commit_buttons ⟨"f"⟩ _ .empty _ _ (congrArg Dialog.form hdialog)
  have hfault : e.verdicts (.measure .punchRadius) ≠ .valid := by decide +kernel
  have hfaults : ¬ ∀ (tab : Tab) (f : Field), tab.shows (.field f) = true →
      e.verdicts f = .valid := fun h => hfault (h .drawing _ rfl)
  exact ⟨hdialog, (hbutton .layers .accept rfl).2.2 hfaults, (hhint .layers).2 hfaults⟩

end App

end ChipSettings
