import ChipSettings.Editor
import ChipSettings.Files.Command

/-! # Editing Sessions

  A session is an editor at work: the form, the profile that is current, and the files.
  Each operation of the editor and of its store is an `Operation`, so that a whole
  course of editing is a list of them.

  - `Session.perform` carries out one operation: what it answers, and the session
    after it.
  - `Session.run` carries out a list of them.
-/

namespace ChipSettings

open Files

/-- The form, the current profile and the files. -/
structure Session where
  editor : Editor
  current : Profile
  files : FileTree

/-- What may happen in a session. -/
inductive Operation where
  /-- Open a new form on the current profile. -/
  | openForm
  /-- Fill the form from a profile. -/
  | load (p : Profile)
  | setText (f : Field) (text : String)
  | appendText (f : Field) (text : String)
  /-- A field loses focus. -/
  | leaveField (f : Field)
  | validateAll
  /-- Replace the text in the box for a new layer. -/
  | setPending (k : LayerKind) (text : String)
  | addLayer (k : LayerKind)
  | setChecked (k : LayerKind) (index : Nat) (checked : Bool)
  /-- Commit the form into a profile that is not kept. -/
  | commitInto (p : Profile)
  /-- Commit the form into the current profile, without keeping it in a file. -/
  | commitCurrent
  | accept
  | exportForm (path : Path)
  | importForm (path : Path)
  | loadCurrent
  | loadOrDefault
  /-- Make what the fixed file holds, or the defaults, current. -/
  | reload
  /-- Write a profile to the fixed file. -/
  | persist (p : Profile)
  /-- Write a profile to a file. -/
  | exportProfile (path : Path) (p : Profile)
  /-- Read a profile from a file. -/
  | importProfile (path : Path)
  /-- Ask where the store keeps the current settings. -/
  | describeStore
  /-- Store the value of a text in the current profile. -/
  | writeCurrent (f : Field) (text : String)
  /-- Append a layer to the current profile. -/
  | pushLayer (k : LayerKind) (name : String)
  /-- Something happens to the files from outside. -/
  | files (command : FileCommand)

/-- What an operation answers. -/
inductive Answer where
  | done
  | failed (error : SettingsError)
  | profile (p : Profile)
  | verdict (v : Verdict)
  | flag (b : Bool)
  | store (path : Path) (extension : String)
  | files (reply : FileReply)

namespace Answer

/-- The answer of an operation that gives nothing or fails. -/
def ofUnit {α : Type} : Except SettingsError α → Answer
  | .ok _ => done
  | .error e => failed e

/-- The answer of an operation that gives a profile or fails. -/
def ofProfile : Except SettingsError Profile → Answer
  | .ok p => profile p
  | .error e => failed e

end Answer

namespace Session

/-- A session at its start: the form of the current profile, and no files. -/
def start (current : Profile) : Session := ⟨.ofProfile current, current, .empty⟩

/-- Carry out an operation with a store. -/
def perform (store : Store) (s : Session) : Operation → Answer × Session
  | .openForm => (.done, { s with editor := .ofProfile s.current })
  | .load p => (.done, { s with editor := s.editor.load p })
  | .setText f text => (.done, { s with editor := s.editor.setText f text })
  | .appendText f text => (.done, { s with editor := s.editor.appendText f text })
  | .leaveField f =>
    let editor := s.editor.leaveField f
    (.verdict (editor.verdicts f), { s with editor })
  | .validateAll => (.done, { s with editor := s.editor.validateAll })
  | .setPending k text => (.done, { s with editor := s.editor.setPending k text })
  | .addLayer k => match s.editor.addLayer? k with
    | some editor => (.flag true, { s with editor })
    | none => (.flag false, s)
  | .setChecked k index checked =>
    (.done, { s with editor := s.editor.setChecked k index checked })
  | .commitInto p => (.profile (s.editor.commitInto p), s)
  | .commitCurrent => (.done, { s with current := s.editor.commitInto s.current })
  | .accept => match s.editor.accept store s.current s.files with
    | (.ok current, files) => (.done, { s with current, files })
    | (.error e, files) => (.failed e, { s with files })
  | .exportForm path => match s.editor.exportTo store s.files path with
    | .ok files => (.done, { s with files })
    | .error e => (.failed e, s)
  | .importForm path => match s.editor.importFrom store s.files path with
    | .ok editor => (.done, { s with editor })
    | .error e => (.failed e, s)
  | .loadCurrent => (.ofProfile (store.loadCurrent s.files), s)
  | .loadOrDefault => (.profile (store.loadOrDefault s.files), s)
  | .reload => (.done, { s with current := store.loadOrDefault s.files })
  | .persist p =>
    let (result, files) := store.persistCurrent s.files p
    (.ofUnit result, { s with files })
  | .exportProfile path p => match store.exportTo s.files p path with
    | .ok files => (.done, { s with files })
    | .error e => (.failed e, s)
  | .importProfile path => (.ofProfile (store.importFrom s.files path), s)
  | .describeStore => (.store store.currentPath store.codec.extension, s)
  | .writeCurrent f text => match f.write? s.current text with
    | some current => (.flag true, { s with current })
    | none => (.flag false, s)
  | .pushLayer k name =>
    (.done, { s with current := s.current.setLayers k (s.current.layers k ++ [name]) })
  | .files command =>
    let (reply, files) := s.files.perform command
    (.files reply, { s with files })

/-- Carry out operations in order. -/
def run (store : Store) (s : Session) (operations : List Operation) : Session :=
  operations.foldl (fun s operation => (s.perform store operation).2) s

end Session

end ChipSettings
