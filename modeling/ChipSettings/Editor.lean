import ChipSettings.Checklist
import ChipSettings.Store
import ChipSettings.Validation

/-! # The Settings Editor

  The editor is the form behind the settings dialog: a text and a verdict per numeric
  field, and a checklist per layer kind.

  - Texts are validated one at a time, when their field loses focus; typing leaves the
    last verdict as it is.
  - `commitInto` writes the form into a profile: texts that are no numbers leave the
    profile's value, and each layer list becomes the checked names.
  - `accept` and `exportTo` are gated: they refuse while a verdict is invalid.
  - `importFrom` replaces the whole form or nothing of it.
-/

namespace ChipSettings

open Files

/-! ## Tables by Field -/

/-- A table with one value changed. -/
def setAt {α β : Type} [DecidableEq α] (table : α → β) (key : α) (value : β) : α → β :=
  fun k => if k = key then value else table k

@[simp] theorem setAt_self {α β : Type} [DecidableEq α] (table : α → β) (key : α) (value : β) :
    setAt table key value key = value := by
  simp [setAt]

@[simp] theorem setAt_of_ne {α β : Type} [DecidableEq α] (table : α → β) {key k : α} (value : β)
    (h : k ≠ key) : setAt table key value k = table k := by
  simp [setAt, h]

/-! ## The Form -/

/-- The form behind the settings dialog. -/
structure Editor where
  /-- The text in the box of each field. -/
  texts : Field → String
  /-- What validation last said about each field. -/
  verdicts : Field → Verdict
  /-- The layers of each kind. -/
  checklists : LayerKind → Checklist

namespace Editor

/-- The form of a profile: its values as texts, every layer checked, no errors. -/
def ofProfile (p : Profile) : Editor where
  texts f := f.read p
  verdicts _ := .valid
  checklists k := .ofNames (p.layers k)

/-- Fill the form from a profile; nothing of what it held before is left. -/
def load (_ : Editor) (p : Profile) : Editor := ofProfile p

instance : Inhabited Editor := ⟨ofProfile .default⟩

/-! ## Editing Numbers -/

/-- Replace the text of a field. -/
def setText (e : Editor) (f : Field) (text : String) : Editor :=
  { e with texts := setAt e.texts f text }

/-- Type at the end of the text of a field. -/
def appendText (e : Editor) (f : Field) (text : String) : Editor :=
  e.setText f (e.texts f ++ text)

/-- Validate the text of a field that lost focus. -/
def leaveField (e : Editor) (f : Field) : Editor :=
  { e with verdicts := setAt e.verdicts f (f.validate (e.texts f)) }

/-- Validate the texts of all fields. -/
def validateAll (e : Editor) : Editor := Field.all.foldl leaveField e

@[simp] theorem texts_setText_self (e : Editor) (f : Field) (text : String) :
    (e.setText f text).texts f = text :=
  setAt_self _ _ _

@[simp] theorem texts_setText_of_ne (e : Editor) {f g : Field} (text : String) (h : g ≠ f) :
    (e.setText f text).texts g = e.texts g :=
  setAt_of_ne _ _ h

@[simp] theorem verdicts_leaveField_self (e : Editor) (f : Field) :
    (e.leaveField f).verdicts f = f.validate (e.texts f) :=
  setAt_self _ _ _

@[simp] theorem verdicts_leaveField_of_ne (e : Editor) {f g : Field} (h : g ≠ f) :
    (e.leaveField f).verdicts g = e.verdicts g :=
  setAt_of_ne _ _ h

/-! ## Editing Layers -/

/-- Change the checklist of a kind. -/
def setChecklist (e : Editor) (k : LayerKind) (c : Checklist) : Editor :=
  { e with checklists := setAt e.checklists k c }

@[simp] theorem checklists_setChecklist_self (e : Editor) (k : LayerKind) (c : Checklist) :
    (e.setChecklist k c).checklists k = c :=
  setAt_self _ _ _

@[simp] theorem checklists_setChecklist_of_ne (e : Editor) {k k' : LayerKind} (c : Checklist)
    (h : k' ≠ k) : (e.setChecklist k c).checklists k' = e.checklists k' :=
  setAt_of_ne _ _ h

/-- Replace the text in the box for a new layer. -/
def setPending (e : Editor) (k : LayerKind) (text : String) : Editor :=
  e.setChecklist k ((e.checklists k).setPending text)

/-- Append the layer named in the box; `none` if the box holds only blanks. -/
def addLayer? (e : Editor) (k : LayerKind) : Option Editor :=
  (e.checklists k).addPending?.map (e.setChecklist k)

/-- Check or uncheck a layer. -/
def setChecked (e : Editor) (k : LayerKind) (index : Nat) (checked : Bool) : Editor :=
  e.setChecklist k ((e.checklists k).setChecked index checked)

/-! ## The Gate -/

/-- The fields whose last verdict is invalid, in field order. -/
def invalidFields (e : Editor) : List Field :=
  Field.all.filter fun f => !(e.verdicts f).isValid

/-- Is every last verdict valid? -/
def allValid (e : Editor) : Bool := Field.all.all fun f => (e.verdicts f).isValid

/-- May the form be accepted and exported? -/
def canCommit (e : Editor) : Bool := e.allValid

/-- Refuse while a field is invalid. -/
def ensureCommittable (e : Editor) : Except SettingsError Unit :=
  if e.invalidFields.isEmpty then .ok () else .error (.invalidFields e.invalidFields)

/-! ## Committing -/

/-- Write the form into a profile. -/
def commitInto (e : Editor) (p : Profile) : Profile :=
  let numbers := Field.all.foldl (fun p f => f.write p (e.texts f)) p
  LayerKind.all.foldl (fun p k => p.setLayers k (e.checklists k).checkedNames) numbers

/-- Commit the form into the current profile and keep it in the fixed file. The current
    profile changes only once the file is written. -/
def accept (e : Editor) (s : Store) (current : Profile) (t : FileTree) :
    Except SettingsError Profile × FileTree :=
  match e.ensureCommittable with
  | .error error => (.error error, t)
  | .ok _ =>
    let candidate := e.commitInto current
    let (result, t) := s.persistCurrent t candidate
    (result.map fun _ => candidate, t)

/-- Write the form to a file, on top of the defaults. -/
def exportTo (e : Editor) (s : Store) (t : FileTree) (path : Path) :
    Except SettingsError FileTree := do
  e.ensureCommittable
  s.exportTo t (e.commitInto .default) path

/-- Fill the form from a file and validate all of it. -/
def importFrom (e : Editor) (s : Store) (t : FileTree) (path : Path) :
    Except SettingsError Editor := do
  let p ← s.importFrom t path
  return (e.load p).validateAll

end Editor

end ChipSettings
