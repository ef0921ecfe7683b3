import ChipSettings.Document.Reader
import ChipSettings.Document.Writer
import ChipSettings.Files.Tree

/-! # Codecs and Errors of the Settings

  A codec turns profiles into texts and texts into profiles. The store and the editor work with
  any codec; settings are kept with `Codec.xml`.

  A `SettingsError` is whatever can go wrong while settings are loaded, saved or committed, by a
  codec or elsewhere. `SettingsError.message` has the words a user is told.
-/

namespace ChipSettings

open Files

/-! ## Errors -/

/-- Why settings could not be loaded, saved or committed. -/
inductive SettingsError where
  /-- An operation on files failed; the path is the one it was given. -/
  | io (path : Path) (cause : IoError)
  /-- A text is no settings document. -/
  | deserialization (reason : String)
  /-- A profile could not be written as a document. -/
  | serialization (reason : String)
  /-- There is no place for settings of this user. -/
  | noDataDirectory
  /-- Fields of the form are invalid. -/
  | invalidFields (fields : List Field)
deriving DecidableEq

namespace SettingsError

/-- Labels of fields, as a list in words. -/
def describe (fields : List Field) : String :=
  ", ".intercalate (fields.map Field.label)

/-- The words a user is told. -/
def message : SettingsError → String
  | io path cause => "I/O error on " ++ path.text ++ ": " ++ cause.message
  | deserialization reason =>
    "Settings file does not match the expected format: " ++ reason
  | serialization reason => "Settings could not be serialized: " ++ reason
  | noDataDirectory => "No per-user application data directory on this platform"
  | invalidFields fields => "Invalid settings: " ++ describe fields

end SettingsError

/-! ## Codecs -/

/-- A way to keep profiles as texts. -/
structure Codec where
  /-- The text of a profile. -/
  serialize : Profile → Except SettingsError String
  /-- The profile of a text. -/
  deserialize : String → Except SettingsError Profile
  /-- Extension of the files it writes, without the dot. -/
  extension : String

namespace Codec

/-- Settings documents. Writing one always succeeds. -/
def xml : Codec where
  serialize p := .ok (String.ofList (Document.write p))
  deserialize text := (Document.read text.toList).mapError fun e => .deserialization e.message
  extension := "xml"

/-- A codec that refuses both directions for the same reason. -/
def refusing (reason extension : String) : Codec where
  serialize _ := .error (.serialization reason)
  deserialize _ := .error (.deserialization reason)
  extension := extension

end Codec

end ChipSettings
