import ChipSettings.Session

/-! # Edits of Different Parts of a Form

  A form has thirteen parts: eleven fields and two lists of layers. An edit is about one part,
  it looks at no other part, and it leaves every other part as it is. So the parts can be
  visited in any order.

  - `Edit` is what may be done to an open form, `Edit.part` the part that it is about.
  - `Editor.AgreeOn part`: two forms look alike there. An edit of the part keeps this
    (`AgreeOn.edit`), and an edit of another part has nothing to do with it
    (`agreeOn_edit_of_ne`).
  - `AgreeOn.editAll_filter`: what a course of edits makes of a part is what the edits of
    that part alone make of it.
  - `edits_independent`: two courses with the same edits of each part end in the same form.
-/

namespace ChipSettings

open Files

/-! ## Edits and Their Parts -/

/-- A part of a form. -/
inductive FormPart where
  | field (f : Field)
  | layers (k : LayerKind)
deriving DecidableEq

/-- What may be done to an open form. -/
inductive Edit where
  | setText (f : Field) (text : String)
  /-- The text of a field is changed inside its box, in whatever way. -/
  | changeText (f : Field) (change : String → String)
  /-- A field loses focus. -/
  | leaveField (f : Field)
  /-- Replace the text in the box for a new layer. -/
  | setPending (k : LayerKind) (text : String)
  | addLayer (k : LayerKind)
  | setChecked (k : LayerKind) (index : Nat) (checked : Bool)

namespace Edit

/-- The part that the edit is about. -/
def part : Edit → FormPart
  | setText f _ => .field f
  | changeText f _ => .field f
  | leaveField f => .field f
  | setPending k _ => .layers k
  | addLayer k => .layers k
  | setChecked k _ _ => .layers k

/-- The edits of a part, in order. -/
def of (part : FormPart) (edits : List Edit) : List Edit :=
  edits.filter fun edit => edit.part = part

end Edit

namespace Editor

/-- Carry out an edit. -/
def edit (e : Editor) : Edit → Editor
  | .setText f text => e.setText f text
  | .changeText f change => e.setText f (change (e.texts f))
  | .leaveField f => e.leaveField f
  | .setPending k text => e.setPending k text
  | .addLayer k => (e.addLayer? k).getD e
  | .setChecked k index checked => e.setChecked k index checked

/-- Carry out edits in order. -/
def editAll (e : Editor) (edits : List Edit) : Editor := edits.foldl edit e

/-- The two forms look alike in the part. -/
def AgreeOn (part : FormPart) (e e' : Editor) : Prop :=
  match part with
  | .field f => e.texts f = e'.texts f ∧ e.verdicts f = e'.verdicts f
  | .layers k => e.checklists k = e'.checklists k

section Agreement

variable {part : FormPart} {e e' e'' : Editor}

theorem AgreeOn.refl (part : FormPart) (e : Editor) : AgreeOn part e e := by
  unfold AgreeOn
  split
  · exact ⟨rfl, rfl⟩
  · rfl

theorem AgreeOn.symm (h : AgreeOn part e e') : AgreeOn part e' e := by
  unfold AgreeOn at *
  split at h
  · exact ⟨h.1.symm, h.2.symm⟩
  · exact Eq.symm h

theorem AgreeOn.trans (h : AgreeOn part e e') (h' : AgreeOn part e' e'') :
    AgreeOn part e e'' := by
  unfold AgreeOn at *
  split at h
  · exact ⟨h.1.trans h'.1, h.2.trans h'.2⟩
  · exact Eq.trans h h'

/-- Forms that look alike in every part are the same. -/
theorem eq_of_agreeOn (h : ∀ part, AgreeOn part e e') : e = e' := by
  obtain ⟨texts, verdicts, checklists⟩ := e
  obtain ⟨texts', verdicts', checklists'⟩ := e'
  have htexts : texts = texts' := funext fun f => (h (.field f)).1
  have hverdicts : verdicts = verdicts' := funext fun f => (h (.field f)).2
  have hchecklists : checklists = checklists' := funext fun k => h (.layers k)
  rw [htexts, hverdicts, hchecklists]

/-! ## One Edit -/

/-- A new text is in the box of its field. -/
theorem agreeOn_setText_of_ne (e : Editor) {f : Field} (text : String) (h : part ≠ .field f) :
    AgreeOn part (e.setText f text) e := by
  cases part with
  | field g =>
    have hne : g ≠ f := fun heq => h (by rw [heq])
    exact ⟨texts_setText_of_ne e text hne, rfl⟩
  | layers k => rfl

/-- A new checklist is that of its kind. -/
theorem agreeOn_setChecklist_of_ne (e : Editor) {k : LayerKind} (c : Checklist)
    (h : part ≠ .layers k) : AgreeOn part (e.setChecklist k c) e := by
  cases part with
  | field f => exact ⟨rfl, rfl⟩
  | layers k' =>
    have hne : k' ≠ k := fun heq => h (by rw [heq])
    exact checklists_setChecklist_of_ne e c hne

/-- An edit of another part leaves a part as it is. -/
theorem agreeOn_edit_of_ne (e : Editor) {edit : Edit} (h : part ≠ edit.part) :
    AgreeOn part (e.edit edit) e := by
  cases edit with
  | setText f text => exact agreeOn_setText_of_ne e text h
  | changeText f change => exact agreeOn_setText_of_ne e _ h
  | leaveField f =>
    cases part with
    | field g =>
      have hne : g ≠ f := fun heq => h (by rw [heq]; rfl)
      exact ⟨rfl, verdicts_leaveField_of_ne e hne⟩
    | layers k => rfl
  | setPending k text => exact agreeOn_setChecklist_of_ne e _ h
  -- a blank name is not added, and then nothing happens at all
  | addLayer k =>
    rw [Editor.edit, addLayer?]
    cases (e.checklists k).addPending? with
    | none => exact .refl part e
    | some c => exact agreeOn_setChecklist_of_ne e c h
  | setChecked k index checked => exact agreeOn_setChecklist_of_ne e _ h

/-- An edit makes the same of its part in forms that look alike there. -/
theorem AgreeOn.edit {edit : Edit} (h : AgreeOn edit.part e e') :
    AgreeOn edit.part (e.edit edit) (e'.edit edit) := by
  cases edit with
  | setText f text =>
    refine ⟨?_, h.2⟩
    rw [Editor.edit, Editor.edit, texts_setText_self, texts_setText_self]
  | changeText f change =>
    refine ⟨?_, h.2⟩
    rw [Editor.edit, Editor.edit, texts_setText_self, texts_setText_self, h.1]
  -- the verdict is about the text of this very field
  | leaveField f =>
    refine ⟨h.1, ?_⟩
    rw [Editor.edit, Editor.edit, verdicts_leaveField_self, verdicts_leaveField_self, h.1]
  | setPending k text =>
    have hlist : e.checklists k = e'.checklists k := h
    show (e.setPending k text).checklists k = (e'.setPending k text).checklists k
    rw [setPending, setPending, checklists_setChecklist_self, checklists_setChecklist_self, hlist]
  | addLayer k =>
    have hlist : e.checklists k = e'.checklists k := h
    rw [Editor.edit, Editor.edit, addLayer?, addLayer?, hlist]
    cases (e'.checklists k).addPending? with
    | none => exact h
    | some c =>
      show (e.setChecklist k c).checklists k = (e'.setChecklist k c).checklists k
      rw [checklists_setChecklist_self, checklists_setChecklist_self]
  | setChecked k index checked =>
    have hlist : e.checklists k = e'.checklists k := h
    show (e.setChecked k index checked).checklists k = (e'.setChecked k index checked).checklists k
    rw [setChecked, setChecked, checklists_setChecklist_self, checklists_setChecklist_self, hlist]

/-! ## Courses of Edits -/

/-- The edits of a part alone make of it what all edits together make of it. -/
theorem AgreeOn.editAll_of (h : AgreeOn part e e') (edits : List Edit) :
    AgreeOn part (e.editAll edits) (e'.editAll (Edit.of part edits)) := by
  induction edits generalizing e e' with
  | nil => exact h
  | cons edit edits ih =>
    by_cases hpart : edit.part = part
    · subst hpart
      rw [Edit.of, List.filter_cons_of_pos (by simp)]
      exact ih h.edit
    · rw [Edit.of, List.filter_cons_of_neg (by simp [hpart])]
      exact ih ((agreeOn_edit_of_ne e (Ne.symm hpart)).trans h)

/-- Courses with the same edits of each part end in the same form. -/
theorem editAll_eq_of_parts (e : Editor) {edits edits' : List Edit}
    (h : ∀ part, Edit.of part edits = Edit.of part edits') :
    e.editAll edits = e.editAll edits' := by
  apply eq_of_agreeOn
  intro part
  have hleft := (AgreeOn.refl part e).editAll_of edits
  have hright := (AgreeOn.refl part e).editAll_of edits'
  rw [h part] at hleft
  exact hleft.trans hright.symm

end Agreement

end Editor

/-! ## Edits in a Session -/

/-- The edit that an operation is, if it is one. -/
def Operation.edit? : Operation → Option Edit
  | setText f text => some (.setText f text)
  | appendText f text => some (.changeText f (· ++ text))
  | leaveField f => some (.leaveField f)
  | setPending k text => some (.setPending k text)
  | addLayer k => some (.addLayer k)
  | setChecked k index checked => some (.setChecked k index checked)
  | _ => none

namespace Session

/-- An operation that is an edit changes the form, and nothing else. -/
theorem perform_of_edit? (store : Store) (s : Session) {operation : Operation} {edit : Edit}
    (h : operation.edit? = some edit) :
    (s.perform store operation).2 = { s with editor := s.editor.edit edit } := by
  cases operation with
  | addLayer k =>
    cases h
    unfold perform Editor.edit
    simp only
    cases s.editor.addLayer? k with
    | none => rfl
    | some editor => rfl
  | setText f text => cases h; rfl
  | appendText f text => cases h; rfl
  | leaveField f => cases h; rfl
  | setPending k text => cases h; rfl
  | setChecked k index checked => cases h; rfl
  | _ => cases h

/-- So does a run of such operations. -/
theorem run_of_edits (store : Store) (s : Session) {operations : List Operation}
    {edits : List Edit} (h : operations.map Operation.edit? = edits.map some) :
    s.run store operations = { s with editor := s.editor.editAll edits } := by
  induction operations generalizing s edits with
  | nil =>
    obtain rfl : edits = [] := List.map_eq_nil_iff.1 h.symm
    rfl
  | cons operation operations ih =>
    obtain ⟨edit, edits, rfl, hedit, hedits⟩ := List.map_eq_cons_iff.1 h.symm
    rw [run, List.foldl_cons, perform_of_edit? store s hedit.symm]
    exact ih _ hedits.symm

end Session

/-- **Edits of different parts are independent**: two courses of edits that do the same things in
    the same order to each field and to each list of layers end in the same form, however the
    edits of different parts are mixed. The two forms have the same texts, verdicts, invalid
    fields, layers and pending names. They commit the same into every profile, and an accept or
    an export does the same with them. A session of such edits ends in the same state. -/
theorem edits_independent (e : Editor) (edits edits' : List Edit)
    (h : ∀ part, Edit.of part edits = Edit.of part edits') :
    let left := e.editAll edits
    let right := e.editAll edits'
    (∀ f, left.texts f = right.texts f ∧ left.verdicts f = right.verdicts f) ∧
      left.invalidFields = right.invalidFields ∧
      (∀ k, (left.checklists k).items = (right.checklists k).items ∧
        (left.checklists k).pending = (right.checklists k).pending) ∧
      (∀ p, left.commitInto p = right.commitInto p) ∧
      (∀ store current t, left.accept store current t = right.accept store current t) ∧
      (∀ store t path, left.exportTo store t path = right.exportTo store t path) ∧
      ∀ (store : Store) (s : Session) (operations operations' : List Operation),
        s.editor = e → operations.map Operation.edit? = edits.map some →
          operations'.map Operation.edit? = edits'.map some →
            s.run store operations = s.run store operations' := by
  intro left right
  have hsame : left = right := e.editAll_eq_of_parts h
  refine ⟨fun f => ⟨by rw [hsame], by rw [hsame]⟩, by rw [hsame],
    fun k => ⟨by rw [hsame], by rw [hsame]⟩, fun p => by rw [hsame],
    fun store current t => by rw [hsame], fun store t path => by rw [hsame], ?_⟩
  intro store s operations operations' hform hleft hright
  rw [Session.run_of_edits store s hleft, Session.run_of_edits store s hright, hform]
  exact congrArg (fun editor => { s with editor }) hsame

/-- A radius is typed, left and typed on, a flow layer is added and a control layer unchecked:
    part by part, or going back and forth between the three. -/
theorem edits_independent_back_and_forth :
    let radius : Field := .measure .punchRadius
    let steadily : List Operation := [.setText radius "0", .leaveField radius,
      .appendText radius ".5", .setPending .flow "A", .addLayer .flow,
      .setChecked .control 0 false]
    let backAndForth : List Operation := [.setPending .flow "A", .setText radius "0",
      .setChecked .control 0 false, .leaveField radius, .addLayer .flow, .appendText radius ".5"]
    (Session.start .default).run (.atPath ⟨"f"⟩) steadily =
      (Session.start .default).run (.atPath ⟨"f"⟩) backAndForth := by
  intro radius steadily backAndForth
  have hparts (part : FormPart) :
      Edit.of part [.setText radius "0", .leaveField radius, .changeText radius (· ++ ".5"),
        .setPending .flow "A", .addLayer .flow, .setChecked .control 0 false] =
      Edit.of part [.setPending .flow "A", .setText radius "0", .setChecked .control 0 false,
        .leaveField radius, .addLayer .flow, .changeText radius (· ++ ".5")] := by
    cases part with
    | field f =>
      by_cases hf : radius = f
      · simp [Edit.of, Edit.part, hf]
      · simp [Edit.of, Edit.part, hf]
    | layers k =>
      cases k with
      | flow => rfl
      | control => rfl
  obtain ⟨-, -, -, -, -, -, hrun⟩ := edits_independent (.ofProfile .default) _ _ hparts
  exact hrun (.atPath ⟨"f"⟩) (.start .default) steadily backAndForth rfl rfl rfl

end ChipSettings
