import ChipSettings.Proofs.App.Press
import ChipSettings.Proofs.Form.Gate

/-! # Edits and the Values They Leave

  Numbers come into the application from the file that is read at its start, from files that
  are imported, and from what is typed. All but the first are validated before a button looks
  at the form, as long as every box that was typed into is left.

  - `markEdited` keeps track of the fields that were typed into and not left since, and
    `EditsLeft` says that there are none whenever a run commits the form.
  - `Editor.SettledFrom p`: every other field was validated as it is, or it still shows the
    value of the profile `p`.
  - `Guarded p`: the invariant of the application, where `p` is the profile it started with.
    Each gesture keeps it (`Guarded.perform`), and so does every run (`Guarded.run`).
-/

namespace ChipSettings

open Files

/-! ## Forms That Show a Loaded Profile -/

/-- For every field that was not edited, the last verdict is that of its text, unless the text
    is the one that the value in the profile is shown as. -/
def Editor.SettledFrom (e : Editor) (p : Profile) (edited : Field → Bool) : Prop :=
  e.Settled fun f => edited f || e.texts f == f.read p

/-- The value of every field is in range, or it is that of the profile. -/
def Profile.InRangeOr (p q : Profile) : Prop :=
  ∀ f : Field, f.InRange q ∨ f.SameValue q p

namespace Editor

variable {e : Editor} {p : Profile} {edited : Field → Bool}

/-- A form that was filled from values in range, or from those of the profile. -/
theorem settledFrom_ofProfile {q : Profile} (h : p.InRangeOr q) (edited : Field → Bool) :
    (ofProfile q).SettledFrom p edited := by
  intro f hf
  obtain ⟨-, hshown⟩ := Bool.or_eq_false_iff.1 hf
  rcases h f with hrange | hsame
  · exact ((f.validate_read_iff q).2 hrange).symm
  · -- the value is that of the profile, and it is shown as the same text
    have hread : (ofProfile q).texts f = f.read p := hsame.read_eq
    rw [hread, beq_self_eq_true] at hshown
    cases hshown

theorem settledFrom_validateAll (e : Editor) (p : Profile) (edited : Field → Bool) :
    e.validateAll.SettledFrom p edited :=
  e.settled_validateAll _

theorem SettledFrom.setText (h : e.SettledFrom p edited) (f : Field) (text : String) :
    (e.setText f text).SettledFrom p (setAt edited f true) := by
  intro g hg
  obtain ⟨hmark, hshown⟩ := Bool.or_eq_false_iff.1 hg
  -- the edited field is marked, so that this is another one
  have hne : g ≠ f := by
    rintro rfl
    rw [setAt_self] at hmark
    cases hmark
  apply Settled.setText h f text g
  rw [texts_setText_of_ne e text hne] at hshown
  rw [setAt_of_ne _ _ hne] at hmark ⊢
  rw [hmark, hshown]
  rfl

theorem SettledFrom.leaveField (h : e.SettledFrom p edited) (f : Field) :
    (e.leaveField f).SettledFrom p (setAt edited f false) := by
  intro g hg
  obtain ⟨hmark, hshown⟩ := Bool.or_eq_false_iff.1 hg
  -- the field was validated just now, and the verdicts of the others stay
  apply Settled.leaveField h f g
  by_cases hgf : g = f
  · rw [hgf, setAt_self]
  · rw [setAt_of_ne _ _ hgf] at hmark ⊢
    have htext : (e.texts g == g.read p) = false := hshown
    rw [hmark, htext]
    rfl

/-- What passes the gate is committed as a value in range or as that of the profile, if this
    is so for the profile that it is committed into. -/
theorem SettledFrom.inRangeOr_commitInto (h : e.SettledFrom p fun _ => false)
    (hgate : e.canCommit = true) {q : Profile} (hq : p.InRangeOr q) :
    p.InRangeOr (e.commitInto q) := by
  intro f
  have hverdict : e.verdicts f = .valid := (canCommit_iff e).1 hgate f
  cases hreads : f.reads (e.texts f) with
  | false =>
    -- the text is no number: the value is the one that it was
    have hsame := sameValue_commitInto hreads q
    rcases hq f with hrange | hloaded
    · exact .inl (hsame.inRange_iff.2 hrange)
    · exact .inr (hsame.trans hloaded)
  | true =>
    have hmatches := matches_commitInto hreads q
    -- a text that the profile is shown as was perhaps never validated, but it is read back
    by_cases hshown : e.texts f = f.read p
    · right
      rw [hshown] at hreads hmatches
      exact Field.sameValue_of_matches hmatches (Field.matches_read_of_reads hreads)
    · left
      have hvalid : e.verdicts f = f.validate (e.texts f) := h f (by simp [hshown])
      exact (Field.validate_eq_valid_iff hmatches).1 (hvalid.symm.trans hverdict)

end Editor

/-! ## Fields That Were Typed Into -/

/-- The fields that remain edited when the box with the focus is left. -/
def TextBox.unmark (focus : Option TextBox) (edited : Field → Bool) : Field → Bool :=
  match focus with
  | some (.field f) => setAt edited f false
  | _ => edited

/-- The edited fields once a box was typed into. The box that had the focus is left for it. -/
def Form.markTyped (form : Form) (box : TextBox) (edited : Field → Bool) : Field → Bool :=
  let others := TextBox.unmark ((form.fieldLeftFor? box).map .field) edited
  match box with
  | .field f => setAt others f true
  | .layerName _ => others

/-- Leaving a box marks no field. -/
theorem TextBox.unmark_eq_false {edited : Field → Bool} (h : ∀ f, edited f = false)
    (focus : Option TextBox) (f : Field) : unmark focus edited f = false := by
  unfold unmark
  split
  · next g =>
    by_cases hfg : f = g
    · rw [hfg, setAt_self]
    · rw [setAt_of_ne _ _ hfg]
      exact h f
  · exact h f

/-- Typing into a box and leaving it marks no field. -/
theorem Form.unmark_markTyped_eq_false {edited : Field → Bool} (h : ∀ f, edited f = false)
    (form : Form) (box : TextBox) (f : Field) :
    TextBox.unmark (some box) (form.markTyped box edited) f = false := by
  have hothers := TextBox.unmark_eq_false h ((form.fieldLeftFor? box).map .field)
  cases box with
  | layerName k => exact hothers f
  | field g =>
    show setAt (setAt _ g true) g false f = false
    by_cases hfg : f = g
    · rw [hfg, setAt_self]
    · rw [setAt_of_ne _ _ hfg, setAt_of_ne _ _ hfg]
      exact hothers f

/-- If this is typing, it ends with Enter. -/
def Gesture.EndsWithEnter : Gesture → Prop
  | .typeInto _ _ submit => submit = true
  | _ => True

namespace App

/-- Does the press fill the form from a file? -/
def refills (a : App) (form : Form) (b : Button) (picked : Option String) : Bool :=
  match b, picked with
  | .importFile, some picked =>
    (form.editor.importFrom a.store a.files (pathOf picked)).isOk
  | _, _ => false

/-- The fields that are edited after one more gesture, while the dialog shows a form. -/
def markOn (a : App) (form : Form) (edited : Field → Bool) : Gesture → Field → Bool
  | .typeInto box _ submit =>
    if a.dialog.tab.shows box then
      if submit then TextBox.unmark (some box) (form.markTyped box edited)
      else form.markTyped box edited
    else edited
  | .enter => TextBox.unmark form.focus edited
  | .press b picked => if a.refills form b picked then fun _ => false else edited
  | _ => edited

/-- The fields that were typed into and not left since, after one more gesture. A form that
    was newly filled has no such field. -/
def markEdited (a : App) (edited : Field → Bool) (g : Gesture) : Field → Bool :=
  match a.dialog.form with
  | none => fun _ => false
  | some form => a.markOn form edited g

/-- The gesture presses a button, and the press says that it wrote the form to a file. An
    export that is cancelled or fails does not count. -/
def Writes (a : App) (g : Gesture) : Prop :=
  ∃ b picked path, g = .press b picked ∧ a.SaysWritten b picked path

/-- Whenever a press writes the form in a run, every box that was typed into has been left. -/
def EditsLeft (a : App) (edited : Field → Bool) : List Gesture → Prop
  | [] => True
  | g :: gestures =>
    (a.Writes g → ∀ f, edited f = false) ∧
      (a.perform g).app.EditsLeft (a.markEdited edited g) gestures

/-- A press of a disabled button marks nothing: the button that fills the form is never
    disabled. -/
theorem markOn_of_disabled {a : App} {form : Form} {edited : Field → Bool} {b : Button}
    {picked : Option String} (hdisabled : ¬ b.enabled form.editor = true) :
    a.markOn form edited (.press b picked) = edited := by
  cases b with
  | importFile => exact absurd rfl hdisabled
  | _ => rfl

/-- Where typing ends with Enter, no field stays edited. -/
theorem markOn_eq_false {a : App} {edited : Field → Bool} (h : ∀ f, edited f = false)
    {g : Gesture} (henter : g.EndsWithEnter) (form : Form) (f : Field) :
    a.markOn form edited g f = false := by
  cases g with
  | typeInto box text submit =>
    obtain rfl : submit = true := henter
    simp only [markOn, if_true]
    split
    · exact form.unmark_markTyped_eq_false h box f
    · exact h f
  | enter => exact TextBox.unmark_eq_false h form.focus f
  | press b picked =>
    simp only [markOn]
    split
    · rfl
    · exact h f
  | _ => exact h f

/-- A run in which all typing ends with Enter is one in which edits are left. -/
theorem editsLeft_of_endsWithEnter {gestures : List Gesture}
    (henter : ∀ g ∈ gestures, g.EndsWithEnter) {a : App} {edited : Field → Bool}
    (h : ∀ f, edited f = false) : a.EditsLeft edited gestures := by
  induction gestures generalizing a edited with
  | nil => trivial
  | cons g gestures ih =>
    refine ⟨fun _ => h, ih (fun g' hg' => henter g' (List.mem_cons_of_mem g hg')) fun f => ?_⟩
    unfold markEdited
    cases a.dialog.form with
    | none => rfl
    | some form => exact markOn_eq_false h (henter g List.mem_cons_self) form f

/-! ## The Invariant -/

/-- The current values are in range or those of the profile, and so are the values of an open
    form in every field that was not edited. -/
structure Guarded (p : Profile) (edited : Field → Bool) (a : App) : Prop where
  current : p.InRangeOr a.current
  form : ∀ form, a.dialog.form = some form → form.editor.SettledFrom p edited

variable {p : Profile} {edited : Field → Bool} {a : App} {form : Form}

namespace Guarded

/-- While the dialog is closed, only the current values count. -/
theorem of_closed (h : a.Guarded p edited) (hclosed : a.dialog.form = none)
    (edited' : Field → Bool) : a.Guarded p edited' where
  current := h.current
  form f hf := by
    rw [hclosed] at hf
    cases hf

/-- A dialog that is closed by whatever means has no form. -/
theorem closeDialog (h : a.Guarded p edited) (edited' : Field → Bool) :
    { a with dialog := a.dialog.close }.Guarded p edited' where
  current := h.current
  form _ hf := nomatch hf

/-- A command may open a new form of the current profile. -/
theorem runCommand (h : a.Guarded p edited) (c : Command) :
    (a.runCommand c).Guarded p edited where
  current := by
    cases c
    unfold App.runCommand
    simp only
    split <;> exact h.current
  form f hf := by
    cases c
    unfold App.runCommand at hf
    simp only at hf
    split at hf
    · exact h.form f hf
    · cases hf
      exact Editor.settledFrom_ofProfile h.current edited

theorem submit (h : a.Guarded p edited) : a.submit.Guarded p edited := by
  have hempty : { a with commandLine := "" }.Guarded p edited := ⟨h.current, h.form⟩
  unfold App.submit
  simp only
  split
  · exact hempty
  · split
    · exact hempty.runCommand _
    · exact ⟨h.current, h.form⟩

/-- Leaving the box of a field validates the field. -/
theorem leaveField (h : a.Guarded p edited) (hform : form.editor.SettledFrom p edited)
    (f : Field) : (a.leaveField form f).Guarded p (setAt edited f false) := by
  have hleft : (a.setForm (form.leaveField f)).Guarded p (setAt edited f false) := by
    refine ⟨h.current, fun f' hf' => ?_⟩
    cases hf'
    exact hform.leaveField f
  unfold App.leaveField
  simp only
  split
  · exact ⟨hleft.current, hleft.form⟩
  · exact hleft

/-- Layers have neither texts nor verdicts of fields. -/
theorem addLayer (h : a.Guarded p edited) (hform : form.editor.SettledFrom p edited)
    (k : LayerKind) : (a.addLayer form k).Guarded p edited := by
  unfold App.addLayer
  split
  · next e hadd =>
    obtain ⟨c, rfl⟩ := Editor.exists_of_addLayer? hadd
    refine ⟨h.current, fun f hf => ?_⟩
    cases hf
    exact hform
  · refine ⟨h.current, fun f hf => ?_⟩
    cases hf
    exact hform

theorem enter (h : a.Guarded p edited) (hopen : a.dialog.form = some form) :
    a.enter.Guarded p (TextBox.unmark form.focus edited) := by
  have hform := h.form form hopen
  unfold App.enter
  rw [hopen]
  simp only
  cases hfocus : form.focus with
  | none => exact h
  | some box => cases box with
    | field f => exact h.leaveField hform f
    | layerName k =>
      have hleft : ({ form with focus := none } : Form).editor.SettledFrom p edited := hform
      exact h.addLayer hleft k

/-- Typing marks the field of the box, and the box that had the focus is left. -/
theorem typeInto (h : a.Guarded p edited) (hform : form.editor.SettledFrom p edited)
    (box : TextBox) (text : String) :
    (a.typeInto form box text).Guarded p (form.markTyped box edited) := by
  have typed (form' : Form) {edited' : Field → Bool} (h' : form'.editor.SettledFrom p edited') :
      (form'.typeInto box text).editor.SettledFrom p
        (match box with
          | .field f => setAt edited' f true
          | .layerName _ => edited') := by
    cases box with
    | field f => exact h'.setText f _
    | layerName k => exact h'
  unfold App.typeInto Form.markTyped
  cases form.fieldLeftFor? box with
  | none =>
    refine ⟨h.current, fun f' hf' => ?_⟩
    cases hf'
    exact typed form hform
  | some f =>
    refine ⟨(h.leaveField hform f).current, fun f' hf' => ?_⟩
    cases hf'
    exact typed (form.leaveField f) (hform.leaveField f)

/-- A form that is committed when all boxes have been left gives values in range, or those of
    the profile. -/
theorem inRangeOr_commitInto (h : a.Guarded p edited) (hopen : a.dialog.form = some form)
    (hleft : ∀ f, edited f = false) (hgate : form.editor.canCommit = true) {q : Profile}
    (hq : p.InRangeOr q) : p.InRangeOr (form.editor.commitInto q) := by
  obtain rfl : edited = fun _ => false := funext hleft
  exact (h.form form hopen).inRangeOr_commitInto hgate hq

/-- Pressing a button: only the profile that an accept commits and the form that an import
    fills are new. -/
theorem press (h : a.Guarded p edited) (hopen : a.dialog.form = some form) (b : Button)
    (picked : Option String) (hleft : a.Writes (.press b picked) → ∀ f, edited f = false) :
    (a.press form b picked).Guarded p (a.markOn form edited (.press b picked)) := by
  have hform := h.form form hopen
  -- the editor of the form stays the same, and so do the marks
  have kept {a' : App} {form' : Form} (hcurrent : a'.current = a.current)
      (hdialog : a'.dialog.form = some form') (heditor : form'.editor = form.editor) :
      a'.Guarded p edited := by
    refine ⟨hcurrent ▸ h.current, fun f hf => ?_⟩
    rw [hdialog] at hf
    cases hf
    rw [heditor]
    exact hform
  obtain ⟨a', hpress, hpressed⟩ := a.pressed form b picked
  rw [hpress]
  cases hpressed with
  | cancelled picked => exact ⟨h.current, fun f hf => nomatch hf⟩
  | saved picked q files haccept =>
    -- the gate was open, and no edit was pending
    have hwrites : a.Writes (.press .accept picked) :=
      ⟨.accept, picked, a.store.currentPath, rfl, saysWritten_of_accept hopen haccept⟩
    obtain ⟨hgate, rfl, -⟩ := Editor.accept_ok haccept
    exact ⟨h.inRangeOr_commitInto hopen (hleft hwrites) hgate h.current, fun f hf => nomatch hf⟩
  | saveFailed picked error files haccept => exact kept rfl rfl rfl
  | unpicked b hfile =>
    rcases hfile with rfl | rfl
    · exact kept rfl rfl rfl
    · exact kept rfl rfl rfl
  | exported picked files hexport => exact kept rfl rfl rfl
  | exportFailed picked error hexport => exact kept rfl rfl rfl
  | imported picked e himport =>
    -- whatever the file holds, all of it has been validated
    obtain ⟨q, -, rfl⟩ := Editor.importFrom_ok himport
    have hrefills : a.refills form .importFile (some picked) = true := by
      simp only [refills, himport]
      rfl
    simp only [markOn, hrefills, if_true]
    refine ⟨h.current, fun f hf => ?_⟩
    cases hf
    exact Editor.settledFrom_validateAll _ p _
  | importFailed picked error himport =>
    have hrefills : a.refills form .importFile (some picked) = false := by
      simp only [refills, himport]
      rfl
    simp only [markOn, hrefills, Bool.false_eq_true, if_false]
    exact kept rfl rfl rfl

/-- Typing, perhaps with Enter at the end: the box that was typed into has the focus then. -/
theorem typeIntoAndEnter (h : a.Guarded p edited) (hopen : a.dialog.form = some form)
    (box : TextBox) (text : String) (submit : Bool) :
    (if submit then (a.typeInto form box text).enter else a.typeInto form box text).Guarded p
      (if submit then TextBox.unmark (some box) (form.markTyped box edited)
        else form.markTyped box edited) := by
  have htyped := h.typeInto (h.form form hopen) box text
  -- Enter leaves the box with the focus, which is this one
  have hfocus : ∃ form', (a.typeInto form box text).dialog.form = some form' ∧
      form'.focus = some box := by
    unfold App.typeInto
    split <;> exact ⟨_, rfl, rfl⟩
  cases submit with
  | false => exact htyped
  | true =>
    obtain ⟨form', hopen', hfocus⟩ := hfocus
    have hentered := htyped.enter hopen'
    rw [hfocus] at hentered
    exact hentered

/-- Flipping a check box leaves the fields alone. -/
theorem toggle (h : a.Guarded p edited) (hform : form.editor.SettledFrom p edited)
    (k : LayerKind) (index : Nat) :
    (a.setEditor form (flip form.editor k index)).Guarded p edited := by
  refine ⟨h.current, fun f hf => ?_⟩
  cases hf
  show (flip form.editor k index).SettledFrom p edited
  unfold flip
  split <;> exact hform

/-- Turning to another page leaves the editor of the form alone. -/
theorem turnTo (h : a.Guarded p edited) (tab : Tab) :
    { a with dialog := a.dialog.turnTo tab }.Guarded p edited := by
  refine ⟨h.current, fun f hf => ?_⟩
  obtain ⟨form, hopen, rfl⟩ := Option.map_eq_some_iff.1 hf
  exact h.form form hopen

/-! ## Gestures and Runs -/

/-- While the dialog is closed, a gesture may run a command or change the files. -/
theorem perform_of_closed (h : a.Guarded p edited) (hclosed : a.dialog.form = none)
    (g : Gesture) (edited' : Field → Bool) : (a.perform g).app.Guarded p edited' := by
  have h' := h.of_closed hclosed edited'
  -- neither the dialog nor any of its widgets is there
  have hshut : a.dialog.isOpen = false := by
    rw [Dialog.isOpen, hclosed]
    rfl
  have habsent (shown : Bool) (act : Form → Reaction) :
      (a.onForm shown act).app.Guarded p edited' := by
    unfold App.onForm
    rw [hclosed]
    exact h'
  cases g with
  | submitLine line =>
    simp only [App.perform, App.react, hshut, Bool.false_eq_true, if_false]
    have hline : { a with commandLine := line }.Guarded p edited' := ⟨h'.current, h'.form⟩
    exact hline.submit
  | pressCommand c =>
    simp only [App.perform, hshut, Bool.false_eq_true, if_false]
    exact h'.runCommand c
  | runCommand c => exact h'.runCommand c
  | enter =>
    have hsame : a.enter = a := by
      unfold App.enter
      rw [hclosed]
    show a.enter.Guarded p edited'
    rw [hsame]
    exact h'
  | closeDialog => exact h.closeDialog edited'
  | files command => exact ⟨h'.current, h'.form⟩
  | miss => exact h'
  | chooseTab tab => exact habsent _ _
  | press b picked => exact habsent _ _
  | typeInto box text submit => exact habsent _ _
  | add k => exact habsent _ _
  | toggle name nth => exact habsent _ _

/-- While the dialog is open, gestures go to its form. -/
theorem perform_of_open (h : a.Guarded p edited) (hopen : a.dialog.form = some form)
    (g : Gesture) (hleft : a.Writes g → ∀ f, edited f = false) :
    (a.perform g).app.Guarded p (a.markEdited edited g) := by
  have hform := h.form form hopen
  have hshown : a.dialog.isOpen = true := by
    rw [Dialog.isOpen, hopen]
    rfl
  have honForm (shown : Bool) (act : Form → Reaction) :
      (a.onForm shown act).app = if shown then (act form).app else a := by
    unfold App.onForm
    rw [hopen]
    cases shown <;> rfl
  have hmarks : a.markEdited edited g = a.markOn form edited g := by
    rw [markEdited, hopen]
  rw [hmarks]
  cases g with
  | submitLine line =>
    simp only [App.perform, hshown, if_true]
    exact h
  | pressCommand c =>
    simp only [App.perform, hshown, if_true]
    exact h
  | runCommand c => exact h.runCommand c
  | chooseTab tab =>
    simp only [App.perform, App.react, honForm, if_true]
    exact h.turnTo tab
  | press b picked =>
    simp only [App.perform, honForm, if_true]
    split
    · exact h.press hopen b picked hleft
    · next hdisabled =>
      rw [markOn_of_disabled hdisabled]
      exact h
  | typeInto box text submit =>
    simp only [App.perform, App.react, honForm, markOn]
    split
    · have htyped := h.typeIntoAndEnter hopen box text submit
      cases submit with
      | false => exact htyped
      | true => exact htyped
    · exact h
  | enter => exact h.enter hopen
  | add k =>
    simp only [App.perform, App.react, honForm]
    split
    · exact h.addLayer hform k
    · exact h
  | toggle name nth =>
    simp only [App.perform, App.react, honForm]
    split
    · split
      · exact h.toggle hform _ _
      · exact h
    · exact h
  | closeDialog => exact h.closeDialog _
  | files command => exact ⟨h.current, h.form⟩
  | miss => exact h

/-- Every gesture keeps the invariant, if no edit is pending where it writes the form. -/
theorem perform (h : a.Guarded p edited) (g : Gesture)
    (hleft : a.Writes g → ∀ f, edited f = false) :
    (a.perform g).app.Guarded p (a.markEdited edited g) := by
  cases hform : a.dialog.form with
  | none => exact h.perform_of_closed hform g _
  | some form => exact h.perform_of_open hform g hleft

/-- The application at its start, with respect to the profile that it loads. -/
theorem start (store : Store) (started : Timestamp) (files : FileTree) :
    (App.start store started files).Guarded (store.loadOrDefault files) fun _ => false where
  current f := .inr (.refl f _)
  form _ hf := nomatch hf

/-- Every run in which edits are left keeps the invariant, up to any gesture of it. Where that
    gesture writes the form, no edit is pending. -/
theorem run {before after : List Gesture} {g : Gesture} (h : a.Guarded p edited)
    (hleft : a.EditsLeft edited (before ++ g :: after)) :
    ∃ edited', (a.run before).Guarded p edited' ∧
      ((a.run before).Writes g → ∀ f, edited' f = false) := by
  -- over the gestures before, with the application and the marks as they are then
  induction before generalizing a edited with
  | nil => exact ⟨edited, h, hleft.1⟩
  | cons g' before ih => exact ih (h.perform g' hleft.1) hleft.2

end Guarded

end App

end ChipSettings
