import ChipSettings.Dialog.Basic
import ChipSettings.Files.Command
import ChipSettings.Panel

/-! # The Application

  The application hosts a command line, a view of the current profile, an event log and
  the settings dialog, which is modal. What a user does to it is a `Gesture`, and a run
  of the application is a list of them.

  - `App.start` loads the current settings and logs the banner.
  - `App.perform` carries out one gesture. A gesture on a widget that is not on screen,
    or that is disabled, changes nothing.
  - `App.run` carries out a list of gestures.
-/

namespace ChipSettings

open Files Text

/-! ## State -/

/-- The application. -/
structure App where
  store : Store
  /-- The profile in effect. -/
  current : Profile
  dialog : Dialog
  /-- The text at the command line. -/
  commandLine : String
  /-- The event log, oldest entry first. -/
  log : List LogEntry
  files : FileTree

/-- A file dialog that was shown: for saving or for opening, and the filters it offers
    by caption and extension. -/
structure Picker where
  saving : Bool
  filters : List (String × String)
deriving DecidableEq

/-- What a user does. -/
inductive Gesture where
  /-- Type a line at the command line and press Enter. -/
  | submitLine (line : String)
  /-- Press the button of a command. -/
  | pressCommand (c : Command)
  /-- Run a command, from wherever. -/
  | runCommand (c : Command)
  | chooseTab (tab : Tab)
  /-- Press a button of the dialog. Where it shows a file dialog, `picked` is the path
      chosen there, none if that was cancelled. -/
  | press (b : Button) (picked : Option String)
  /-- Replace the text of a box, which gets the focus, and perhaps press Enter. -/
  | typeInto (box : TextBox) (text : String) (submit : Bool)
  /-- Press Enter in the box that has the focus. -/
  | enter
  /-- Press the button that adds the new layer. -/
  | add (k : LayerKind)
  /-- Flip a check box, the `nth` of those with this name. -/
  | toggle (name : String) (nth : Nat)
  /-- Close the dialog without a button. -/
  | closeDialog
  /-- Something happens to the files from outside. -/
  | files (command : FileCommand)
  /-- Reach for a widget that the application does not have. -/
  | miss

namespace Gesture

/-- Choose the tab with a title. -/
def chooseTitle (title : String) : Gesture :=
  match Tab.ofTitle? title with
  | some tab => .chooseTab tab
  | none => .miss

/-- Press the first button of the dialog with a caption. -/
def pressCaption (caption : String) (picked : Option String) : Gesture :=
  if caption = addCaption then .add .flow
  else match Button.ofCaption? caption with
    | some b => .press b picked
    | none => .miss

end Gesture

/-- What a gesture met. -/
inductive Response where
  | ok
  /-- The widget is not on screen. -/
  | absent
  /-- The widget is disabled. -/
  | disabled
  | files (reply : FileReply)

/-- What a gesture brings about: the response, the file dialog that was shown, and the
    application after it. -/
structure Reaction where
  response : Response
  picker : Option Picker
  app : App

namespace App

/-! ## Start -/

/-- The application at start-up. -/
def start (store : Store) (started : Timestamp) (files : FileTree) : App where
  store := store
  current := store.loadOrDefault files
  dialog := .initial
  commandLine := ""
  log := [⟨.info, Banner.text started store.currentPath files⟩]
  files := files

/-! ## Pieces of a Gesture -/

/-- Add an entry to the log. -/
def say (a : App) (kind : LogKind) (message : String) : App :=
  { a with log := a.log ++ [⟨kind, message⟩] }

/-- Replace the form of the dialog. -/
def setForm (a : App) (f : Form) : App :=
  { a with dialog := { a.dialog with form := some f } }

/-- Replace the editor of a form. -/
def setEditor (a : App) (f : Form) (e : Editor) : App := a.setForm { f with editor := e }

/-- Nothing happens. -/
def ignore (a : App) (response : Response) : Reaction := ⟨response, none, a⟩

/-- Something happened. -/
def react (a : App) : Reaction := ⟨.ok, none, a⟩

/-- Do something with the form, if the dialog is open and shows the widget. -/
def onForm (a : App) (shown : Bool) (act : Form → Reaction) : Reaction :=
  match a.dialog.form with
  | some f => if shown then act f else a.ignore .absent
  | none => a.ignore .absent

/-! ## Commands -/

/-- Run a command: it is logged even where it changes nothing. -/
def runCommand (a : App) (c : Command) : App :=
  let a := a.say .command c.name
  match c with
  | .settings =>
    if a.dialog.isOpen then a else { a with dialog := a.dialog.openOn a.current }

/-- Run what is at the command line, and empty it. -/
def submit (a : App) : App :=
  let line := a.commandLine
  let a := { a with commandLine := "" }
  if (trim line).isEmpty then a
  else match Command.ofLine? line with
    | some c => a.runCommand c
    | none => a.say .warning ("Unknown command: " ++ trim line)

/-! ## Fields and Layers -/

/-- Leave the box of a field: its text is validated, and a fault is logged. -/
def leaveField (a : App) (form : Form) (f : Field) : App :=
  let form := form.leaveField f
  let a := a.setForm form
  match form.complaint? f with
  | some complaint => a.say .validation complaint
  | none => a

/-- Add the layer named in the box of a kind, if a name is there. -/
def addLayer (a : App) (form : Form) (k : LayerKind) : App :=
  match form.editor.addLayer? k with
  | some e =>
    let name := (form.editor.checklists k).pendingName
    (a.setEditor form e).say .info ("Added layer '" ++ name ++ "' to " ++ k.label)
  | none => a.setForm form

/-- Replace the text of a box. The focus moves there, so that a field is left which had
    it before. -/
def typeInto (a : App) (form : Form) (box : TextBox) (text : String) : App :=
  match form.fieldLeftFor? box with
  | some f => (a.leaveField form f).setForm ((form.leaveField f).typeInto box text)
  | none => a.setForm (form.typeInto box text)

/-- Press Enter. The box that has the focus is left, and the name of a new layer is taken
    over from it. -/
def enter (a : App) : App :=
  match a.dialog.form with
  | none => a
  | some form => match form.focus with
    | some (.field f) => a.leaveField form f
    | some (.layerName k) => a.addLayer { form with focus := none } k
    | none => a

/-- The kind and position of the `nth` check box with a name, over both lists. -/
def checkBox? (e : Editor) (name : String) (nth : Nat) : Option (LayerKind × Nat) :=
  let boxes := LayerKind.all.flatMap fun k =>
    (e.checklists k).items.zipIdx.map fun (item, index) => (item.name, k, index)
  (boxes.filter (·.1 = name))[nth]?.map (·.2)

/-- Flip a check box. -/
def flip (e : Editor) (k : LayerKind) (index : Nat) : Editor :=
  match (e.checklists k).items[index]? with
  | some item => e.setChecked k index (!item.checked)
  | none => e

/-! ## Buttons -/

/-- Report a failure in the log and in the dialog. -/
def reportFailure (a : App) (form : Form) (what : String) (error : SettingsError) : App :=
  let message := what ++ ": " ++ error.message
  (a.setForm { form with status := some message }).say .error message

/-- The filter for the files of the store's codec. -/
def settingsFilter (a : App) : String × String :=
  (Product.fileFilterName, a.store.codec.extension)

/-- The file dialog that a button shows. -/
def pickerOf (a : App) : Button → Option Picker
  | .importFile => some ⟨false, [a.settingsFilter, ("All files", "*")]⟩
  | .exportFile => some ⟨true, [a.settingsFilter]⟩
  | _ => none

/-- The path picked in a file dialog; blanks around it do not count. -/
def pathOf (picked : String) : Path := ⟨trim picked⟩

/-- Press an enabled button. The last failure is forgotten first. -/
def press (a : App) (form : Form) (b : Button) (picked : Option String) : App :=
  let form := { form with status := none }
  let a := a.setForm form
  match b with
  | .cancel =>
    let a := a.say .info "Settings dialog cancelled, changes discarded"
    { a with dialog := a.dialog.close }
  | .accept => match form.editor.accept a.store a.current a.files with
    | (.ok current, files) =>
      let a := { a with current, files }
      let a := a.say .info ("Saved settings to " ++ a.store.currentPath.text)
      { a with dialog := a.dialog.close }
    | (.error e, files) => { a with files }.reportFailure form "Saving settings failed" e
  | .exportFile => match picked.map pathOf with
    | none => a
    | some path => match form.editor.exportTo a.store a.files path with
      | .ok files => { a with files }.say .info ("Exported settings to " ++ path.text)
      | .error e => a.reportFailure form "Export failed" e
  | .importFile => match picked.map pathOf with
    | none => a
    | some path => match form.editor.importFrom a.store a.files path with
      | .ok e =>
        (a.setEditor form e).say .info
          ("Imported settings from " ++ path.text ++ " (press OK to make them current)")
      | .error e => a.reportFailure form "Import failed" e

/-! ## Gestures -/

/-- Carry out a gesture. -/
def perform (a : App) : Gesture → Reaction
  | .submitLine line =>
    if a.dialog.isOpen then a.ignore .disabled
    else { a with commandLine := line }.submit.react
  | .pressCommand c =>
    if a.dialog.isOpen then a.ignore .disabled else (a.runCommand c).react
  | .runCommand c => (a.runCommand c).react
  | .chooseTab tab => a.onForm true fun _ => { a with dialog := a.dialog.turnTo tab }.react
  | .press b picked => a.onForm true fun form =>
    if b.enabled form.editor then ⟨.ok, a.pickerOf b, a.press form b picked⟩
    else a.ignore .disabled
  | .typeInto box text submit => a.onForm (a.dialog.tab.shows box) fun form =>
    let a := a.typeInto form box text
    (if submit then a.enter else a).react
  | .enter => a.enter.react
  | .add k => a.onForm (a.dialog.tab = .layers) fun form => (a.addLayer form k).react
  | .toggle name nth => a.onForm (a.dialog.tab = .layers) fun form =>
    match checkBox? form.editor name nth with
    | some (k, index) => (a.setEditor form (flip form.editor k index)).react
    | none => a.ignore .absent
  | .closeDialog => { a with dialog := a.dialog.close }.react
  | .files command =>
    let (reply, files) := a.files.perform command
    ⟨.files reply, none, { a with files }⟩
  | .miss => a.ignore .absent

/-- Carry out gestures in order. -/
def run (a : App) (gestures : List Gesture) : App :=
  gestures.foldl (fun a gesture => (a.perform gesture).app) a

end App

end ChipSettings
