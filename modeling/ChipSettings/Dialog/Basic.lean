import ChipSettings.Editor

/-! # The Settings Dialog

  The dialog shows the form on three pages and offers four buttons.

  - While it is open it holds a form: the editor, the last failure, and the text box
    that has the focus.
  - The page last shown is kept when the dialog is closed; everything else is gone.
-/

namespace ChipSettings

/-! ## Pages -/

/-- A page of the dialog. -/
inductive Tab where
  | drawing
  | layers
  | routing
deriving DecidableEq, Inhabited

/-- Fields under a common heading, which may be missing. -/
structure Section where
  heading : Option String
  fields : List Field

namespace Tab

/-- The pages in the order of their tabs. -/
def all : List Tab := [drawing, layers, routing]

/-- Title of the tab. -/
def title : Tab → String
  | drawing => "Drawing"
  | layers => "Layers"
  | routing => "Routing"

/-- The fields shown on a page, in order. -/
def sections : Tab → List Section
  | drawing =>
    [⟨some "Punch", [.measure .punchRadius, .punchBarNumber, .measure .punchBarWidth]⟩,
      ⟨some "Valve", [.measure .valveRelativeWidth, .measure .valveRelativeHeight]⟩]
  | layers => []
  | routing =>
    [⟨none, [.measure .connectionWidth]⟩,
      ⟨some "Extra Space",
        [.measure .flowExtraWidth, .measure .valveExtraWidth, .measure .controlLineExtraWidth]⟩,
      ⟨some "Minimum Distance", [.measure .resolution, .measure .punchToLine]⟩]

/-- The page with a title. -/
def ofTitle? (title : String) : Option Tab := all.find? (·.title = title)

end Tab

/-! ## Text Boxes -/

/-- A text box of the dialog. -/
inductive TextBox where
  /-- The box of a numeric field. -/
  | field (f : Field)
  /-- The box for the name of a new layer. -/
  | layerName (k : LayerKind)
deriving DecidableEq

/-- What a box holds once a text was typed in place of what it held. A line break on its
    own is the Enter key and no text, so that the box is left empty. -/
def TextBox.typed (text : String) : String :=
  if text = "\n" ∨ text = "\r" then "" else text

/-- Is the box on this page? -/
def Tab.shows (tab : Tab) : TextBox → Bool
  | .field f => tab.sections.any fun s => f ∈ s.fields
  | .layerName _ => tab = .layers

/-! ## Buttons -/

/-- Caption of the button beside each box for a new layer. -/
def addCaption : String := "Add"

/-- A button at the foot of the dialog. -/
inductive Button where
  | importFile
  | exportFile
  | cancel
  | accept
deriving DecidableEq

namespace Button

/-- The buttons in the order they stand. -/
def all : List Button := [importFile, exportFile, cancel, accept]

/-- Caption of the button. -/
def caption : Button → String
  | importFile => "Import..."
  | exportFile => "Export..."
  | cancel => "Cancel"
  | accept => "OK"

/-- Does the button write the form somewhere, so that it needs a valid form? -/
def commits : Button → Bool
  | exportFile => true
  | accept => true
  | _ => false

/-- The button with a caption. -/
def ofCaption? (caption : String) : Option Button := all.find? (·.caption = caption)

/-- Is the button enabled for this form? -/
def enabled (b : Button) (e : Editor) : Bool := !b.commits || e.canCommit

end Button

/-! ## The Dialog -/

/-- What an open dialog holds. -/
structure Form where
  editor : Editor
  /-- The last failure, until the next button is pressed. -/
  status : Option String
  /-- The box that was typed into and not yet left. -/
  focus : Option TextBox

namespace Form

/-- Leave the box of a field: its text is validated. -/
def leaveField (form : Form) (f : Field) : Form :=
  { form with editor := form.editor.leaveField f, focus := none }

/-- What is wrong with the text of a field, as validation last found it. -/
def complaint? (form : Form) (f : Field) : Option String :=
  (form.editor.verdicts f).fault?.map fun fault =>
    f.label ++ " '" ++ form.editor.texts f ++ "' " ++ fault.message

/-- Replace the text of a box, which gets the focus. -/
def typeInto (form : Form) (box : TextBox) (text : String) : Form where
  editor := match box with
    | .field f => form.editor.setText f (TextBox.typed text)
    | .layerName k => form.editor.setPending k (TextBox.typed text)
  status := form.status
  focus := some box

/-- The field that is left when the focus moves to a box. -/
def fieldLeftFor? (form : Form) (box : TextBox) : Option Field :=
  match form.focus with
  | some (.field f) => if box = .field f then none else some f
  | _ => none

end Form

/-- The settings dialog. -/
structure Dialog where
  /-- The page shown, or shown last. -/
  tab : Tab
  /-- Present while the dialog is open. -/
  form : Option Form

namespace Dialog

/-- The dialog before it is first opened. -/
def initial : Dialog := ⟨.drawing, none⟩

instance : Inhabited Dialog := ⟨initial⟩

/-- Is the dialog open? -/
def isOpen (d : Dialog) : Bool := d.form.isSome

/-- The failure that an open dialog shows. -/
def status (d : Dialog) : Option String := d.form.bind Form.status

/-- Open the dialog on a fresh form of a profile. -/
def openOn (d : Dialog) (p : Profile) : Dialog :=
  { d with form := some ⟨.ofProfile p, none, none⟩ }

/-- Turn to a page. A box that goes out of sight loses the focus without being left, so
    that its text is not validated. -/
def turnTo (d : Dialog) (tab : Tab) : Dialog where
  tab := tab
  form := d.form.map fun form => { form with focus := form.focus.filter tab.shows }

/-- Close the dialog and forget its form. -/
def close (d : Dialog) : Dialog := { d with form := none }

end Dialog

end ChipSettings
