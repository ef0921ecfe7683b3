import ChipSettings.Dialog.Basic

/-! # What the Dialog Shows

  The widgets of the dialog in display order: the tabs, the page, the last failure, a
  hint while the form cannot be committed, and the buttons.
-/

namespace ChipSettings

/-- A widget as the user sees it. -/
inductive Widget where
  | tab (title : String) (selected : Bool)
  | label (text : String)
  | textBox (content : String)
  | checkBox (name : String) (checked : Bool)
  | button (caption : String) (enabled : Bool)
deriving DecidableEq

namespace View

/-- A field: its label, its box, and the fault that was found. -/
def field (e : Editor) (f : Field) : List Widget :=
  .label (f.label ++ ":") :: .textBox (e.texts f) ::
    match (e.verdicts f).fault? with
    | some fault => [.label ("⚠ " ++ fault.message)]
    | none => []

/-- Fields under their heading. -/
def fieldSection (e : Editor) (s : Section) : List Widget :=
  (s.heading.toList.map .label) ++ s.fields.flatMap (field e)

/-- The layers of a kind: the box for a new one, and a check box for each listed one. -/
def checklist (e : Editor) (k : LayerKind) : List Widget :=
  let c := e.checklists k
  .label k.label :: .textBox c.pending :: .button addCaption true ::
    c.items.map fun item => .checkBox item.name item.checked

/-- The widgets of a page. -/
def page (e : Editor) (tab : Tab) : List Widget :=
  match tab with
  | .layers => LayerKind.all.flatMap (checklist e)
  | _ => tab.sections.flatMap (fieldSection e)

/-- Said while the form cannot be committed. -/
def hint : String := "Fix the highlighted fields to enable OK and Export"

/-- The widgets of an open dialog. -/
def form (tab : Tab) (f : Form) : List Widget :=
  Tab.all.map (fun t => .tab t.title (t == tab)) ++
    page f.editor tab ++
    f.status.toList.map .label ++
    (if f.editor.canCommit then [] else [.label hint]) ++
    Button.all.map fun b => .button b.caption (b.enabled f.editor)

end View

/-- The widgets of the dialog, none while it is closed. -/
def Dialog.widgets (d : Dialog) : List Widget :=
  match d.form with
  | some f => View.form d.tab f
  | none => []

end ChipSettings
