import ChipSettings.Proofs.App.Press

/-! # What a Gesture Leaves Alone

  All but the buttons of the dialog works on the dialog, the command line and the log.

  - `KeptInside R`: such work keeps the relation `R` between the application before and after.
    Then every gesture keeps it that is no press of a button and no outside change of the files
    (`KeptInside.perform`). `KeptThroughout R`: so does a change of the rest, and then every
    gesture keeps it.
  - `SameOutside a a'`: the store, the current profile and the files are the same, as they are
    after a gesture of the first kind (`sameOutside_perform`).
  - `store_run`, `log_run` and `commandLine_run`: in any run the store stays the same, the log
    only grows, and no text stays at the command line.
-/

namespace ChipSettings

open Files

/-- Is the gesture neither a press of a button of the dialog nor an outside change of the
    files? -/
def Gesture.staysInside : Gesture → Bool
  | .press _ _ => false
  | .files _ => false
  | _ => true

/-- Does the gesture close the dialog and discard its form? -/
def Gesture.closes : Gesture → Bool
  | .press .cancel _ => true
  | .closeDialog => true
  | _ => false

namespace App

/-- The store, the current profile and the files of two applications are the same. -/
structure SameOutside (a a' : App) : Prop where
  store : a'.store = a.store
  current : a'.current = a.current
  files : a'.files = a.files

/-! ## Relations That Gestures Keep -/

/-- Work on the dialog, on the command line and on the log keeps the relation. -/
structure KeptInside (R : App → App → Prop) : Prop where
  refl : ∀ a, R a a
  trans : ∀ {a a' a''}, R a a' → R a' a'' → R a a''
  say : ∀ a kind message, R a (a.say kind message)
  dialog : ∀ (a : App) d, R a { a with dialog := d }
  emptied : ∀ (a : App), R a { a with commandLine := "" }

/-- So does a change of the current profile and of the files. -/
structure KeptThroughout (R : App → App → Prop) : Prop extends KeptInside R where
  outside : ∀ (a : App) current files, R a { a with current, files }

theorem keptInside_sameOutside : KeptInside SameOutside where
  refl _ := ⟨rfl, rfl, rfl⟩
  trans h h' := ⟨h'.store.trans h.store, h'.current.trans h.current, h'.files.trans h.files⟩
  say _ _ _ := ⟨rfl, rfl, rfl⟩
  dialog _ _ := ⟨rfl, rfl, rfl⟩
  emptied _ := ⟨rfl, rfl, rfl⟩

theorem keptThroughout_store : KeptThroughout fun a a' => a'.store = a.store where
  refl _ := rfl
  trans h h' := h'.trans h
  say _ _ _ := rfl
  dialog _ _ := rfl
  emptied _ := rfl
  outside _ _ _ := rfl

theorem keptThroughout_log : KeptThroughout fun a a' => a.log <+: a'.log where
  refl a := List.prefix_refl a.log
  trans h h' := h.trans h'
  say a _ _ := List.prefix_append a.log _
  dialog a _ := List.prefix_refl a.log
  emptied a := List.prefix_refl a.log
  outside a _ _ := List.prefix_refl a.log

theorem keptThroughout_commandLine :
    KeptThroughout fun a a' => a.commandLine = "" → a'.commandLine = "" where
  refl _ h := h
  trans h h' hempty := h' (h hempty)
  say _ _ _ h := h
  dialog _ _ h := h
  emptied _ _ := rfl
  outside _ _ _ h := h

@[simp] theorem app_react (a : App) : a.react.app = a := rfl

namespace KeptInside

variable {R : App → App → Prop}

theorem runCommand (h : KeptInside R) (a : App) (c : Command) : R a (a.runCommand c) := by
  cases c
  unfold App.runCommand
  simp only
  split
  · exact h.say a _ _
  · exact h.trans (h.say a _ _) (h.dialog _ _)

/-- A line that was typed at the command line does not stay there. -/
theorem submit (h : KeptInside R) (a : App) (line : String) :
    R a ({ a with commandLine := line } : App).submit := by
  have hempty : R a { a with commandLine := "" } := h.emptied a
  unfold App.submit
  simp only
  split
  · exact hempty
  · split
    · exact h.trans hempty (h.runCommand _ _)
    · exact h.trans hempty (h.say _ _ _)

theorem leaveField (h : KeptInside R) (a : App) (form : Form) (f : Field) :
    R a (a.leaveField form f) := by
  unfold App.leaveField
  simp only
  split
  · exact h.trans (h.dialog a _) (h.say _ _ _)
  · exact h.dialog a _

theorem addLayer (h : KeptInside R) (a : App) (form : Form) (k : LayerKind) :
    R a (a.addLayer form k) := by
  unfold App.addLayer
  split
  · exact h.trans (h.dialog a _) (h.say _ _ _)
  · exact h.dialog a _

theorem typeInto (h : KeptInside R) (a : App) (form : Form) (box : TextBox) (text : String) :
    R a (a.typeInto form box text) := by
  unfold App.typeInto
  split
  · exact h.trans (h.leaveField a form _) (h.dialog _ _)
  · exact h.dialog a _

theorem enter (h : KeptInside R) (a : App) : R a a.enter := by
  unfold App.enter
  split
  · exact h.refl a
  · split
    · exact h.leaveField a _ _
    · exact h.addLayer a _ _
    · exact h.refl a

theorem onForm (h : KeptInside R) (a : App) (shown : Bool) {act : Form → Reaction}
    (hact : ∀ form, R a (act form).app) : R a (a.onForm shown act).app := by
  unfold App.onForm
  split
  · split
    · exact hact _
    · exact h.refl a
  · exact h.refl a

/-- Editing, commands and closing the dialog keep the relation. -/
theorem perform (h : KeptInside R) (a : App) {g : Gesture} (hinside : g.staysInside = true) :
    R a (a.perform g).app := by
  cases g with
  | press b picked => cases hinside
  | files command => cases hinside
  | submitLine line =>
    unfold App.perform
    simp only
    split
    · exact h.refl a
    · rw [app_react]
      exact h.submit a line
  | pressCommand c =>
    unfold App.perform
    simp only
    split
    · exact h.refl a
    · exact h.runCommand a c
  | runCommand c => exact h.runCommand a c
  | chooseTab tab =>
    apply h.onForm a
    intro form
    rw [app_react]
    exact h.dialog a _
  | typeInto box text submit =>
    apply h.onForm a
    intro form
    have htyped := h.typeInto a form box text
    simp only [app_react]
    split
    · exact h.trans htyped (h.enter _)
    · exact htyped
  | enter => exact h.enter a
  | add k =>
    apply h.onForm a
    intro form
    rw [app_react]
    exact h.addLayer a form k
  | toggle name nth =>
    apply h.onForm a
    intro form
    split
    · exact h.dialog a _
    · exact h.refl a
  | closeDialog => exact h.dialog a _
  | miss => exact h.refl a

end KeptInside

/-- Editing, commands and closing the dialog leave everything outside the dialog alone. -/
theorem sameOutside_perform (a : App) {g : Gesture} (h : g.staysInside = true) :
    SameOutside a (a.perform g).app := keptInside_sameOutside.perform a h

/-- A press of a button does nothing, or it is carried out while the dialog is open and the
    button enabled. -/
theorem perform_press (a : App) (b : Button) (picked : Option String) :
    (a.perform (.press b picked)).app = a ∨
      ∃ form, a.dialog.form = some form ∧ b.enabled form.editor = true ∧
        (a.perform (.press b picked)).app = a.press form b picked := by
  simp only [perform, onForm]
  cases hopen : a.dialog.form with
  | none => exact .inl rfl
  | some form =>
    simp only [if_true]
    by_cases henabled : b.enabled form.editor = true
    · rw [if_pos henabled]
      exact .inr ⟨form, rfl, henabled, rfl⟩
    · rw [if_neg henabled]
      exact .inl rfl

/-- A gesture that closes the dialog leaves no form. -/
theorem form_of_closes {a : App} {g : Gesture} (h : g.closes = true) :
    (a.perform g).app.dialog.form = none := by
  cases g with
  | closeDialog => rfl
  | press b picked => cases b with
    | cancel =>
      simp only [perform, onForm]
      cases hform : a.dialog.form with
      | none => exact hform
      | some form => rfl
    | _ => cases h
  | _ => cases h

/-! ## Runs -/

theorem run_cons (a : App) (g : Gesture) (gestures : List Gesture) :
    a.run (g :: gestures) = (a.perform g).app.run gestures := rfl

/-- A run takes its gestures one part after the other. -/
theorem run_append (a : App) (before after : List Gesture) :
    a.run (before ++ after) = (a.run before).run after :=
  List.foldl_append

namespace KeptThroughout

variable {R : App → App → Prop}

/-- A press says something and leaves the dialog in some way, whatever else it does. -/
theorem pressed (h : KeptThroughout R) {a a' : App} {form : Form} {b : Button}
    {picked : Option String} (hpressed : a.Pressed form b picked a') : R a a' := by
  have htold (current : Profile) (files : FileTree) (form : Option Form) (message : String) :
      R a ({ a with current, files }.told form message) := by
    have houtside := h.outside a current files
    exact h.trans (h.trans houtside (h.dialog _ { a.dialog with form })) (h.say _ .info message)
  have hreported (what : String) (error : SettingsError) (files : FileTree) :
      R a (a.reported form what error files) := by
    have houtside := h.outside a a.current files
    exact h.trans (h.trans houtside (h.dialog _ { a.dialog with form := some _ }))
      (h.say _ .error (what ++ ": " ++ error.message))
  cases hpressed with
  | cancelled picked => exact htold a.current a.files _ _
  | saved picked current files haccept => exact htold current files _ _
  | saveFailed picked error files haccept => exact hreported _ error files
  | unpicked b hfile => exact h.dialog a _
  | exported picked files hexport => exact htold a.current files _ _
  | exportFailed picked error hexport => exact hreported _ error a.files
  | imported picked e himport => exact htold a.current a.files _ _
  | importFailed picked error himport => exact hreported _ error a.files

/-- Every gesture keeps the relation. -/
theorem perform (h : KeptThroughout R) (a : App) (g : Gesture) : R a (a.perform g).app := by
  by_cases hinside : g.staysInside = true
  · exact h.toKeptInside.perform a hinside
  · cases g with
    | press b picked =>
      rcases a.perform_press b picked with hsame | ⟨form, -, -, hperform⟩
      · rw [hsame]
        exact h.refl a
      · obtain ⟨a', hpress, hpressed⟩ := a.pressed form b picked
        rw [hperform, hpress]
        exact h.pressed hpressed
    | files command => exact h.outside a a.current _
    | _ => exact absurd rfl hinside

/-- And so does every run. -/
theorem run (h : KeptThroughout R) (a : App) (gestures : List Gesture) : R a (a.run gestures) := by
  induction gestures generalizing a with
  | nil => exact h.refl a
  | cons g gestures ih => exact h.trans (h.perform a g) (ih _)

end KeptThroughout

/-- No gesture changes the store. -/
theorem store_perform (a : App) (g : Gesture) : (a.perform g).app.store = a.store :=
  keptThroughout_store.perform a g

/-- No run changes the store. -/
theorem store_run (a : App) (gestures : List Gesture) : (a.run gestures).store = a.store :=
  keptThroughout_store.run a gestures

/-- The log only grows. -/
theorem log_run (a : App) (gestures : List Gesture) : a.log <+: (a.run gestures).log :=
  keptThroughout_log.run a gestures

/-- No text stays at the command line. -/
theorem commandLine_run (store : Store) (started : Timestamp) (files : FileTree)
    (gestures : List Gesture) : ((start store started files).run gestures).commandLine = "" :=
  keptThroughout_commandLine.run _ gestures rfl

end App

end ChipSettings
