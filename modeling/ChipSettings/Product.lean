import ChipSettings.Files.Tree
import ChipSettings.Number.Numeral

/-! # The Product and its Banner

  The fixed words by which the product names itself, its files and what it is built with, and
  the banner that the event log shows at start-up: the application, the time, where the current
  settings are kept and whether they were saved before, and what the application is built with.
-/

namespace ChipSettings

open Files

/-! ## The Product -/

namespace Product

/-- Name of the application. -/
def applicationName : String := "Micado - Microfluidic Chip Design"

/-- Version of the application. -/
def version : String := "0.1.0"

/-- Version of the window toolkit it is built with. -/
def toolkitVersion : String := "0.31"

/-- Version of the document library it is built with. -/
def documentVersion : String := "0.38"

/-- Directory of the settings in a user's data directory. -/
def directoryName : String := "micado"

/-- Name of the file of current settings. -/
def currentFileName : String := "current-settings.xml"

/-- Caption under which file dialogs offer settings files. -/
def fileFilterName : String := "micado settings"

end Product

/-! ## The Start-up Banner -/

/-- A moment in local time. -/
structure Timestamp where
  year : Nat
  month : Nat
  day : Nat
  hour : Nat
  minute : Nat
  second : Nat
deriving DecidableEq, Inhabited

namespace Timestamp

/-- A number in at least `width` digits. -/
def padded (width n : Nat) : String := String.ofList (Number.Decimal.paddedDigits width n)

/-- Date and time of day, to the second. -/
def format (t : Timestamp) : String :=
  padded 4 t.year ++ "-" ++ padded 2 t.month ++ "-" ++ padded 2 t.day ++ " " ++
    padded 2 t.hour ++ ":" ++ padded 2 t.minute ++ ":" ++ padded 2 t.second

end Timestamp

namespace Banner

/-- Said when there is no file of current settings. -/
def notSaved : String := "  (not saved yet, compiled-in defaults are in use)"

/-- The entries of the banner, each on a line of its own. -/
def entries (started : Timestamp) (settingsPath : Path) (t : FileTree) : List String :=
  [Product.applicationName ++ " " ++ Product.version,
    "Started " ++ started.format,
    "Settings file : " ++ settingsPath.text] ++
  (if t.contains settingsPath then [] else [notSaved]) ++
  ["Built with egui " ++ Product.toolkitVersion ++ ", quick-xml " ++ Product.documentVersion]

/-- The banner as one text. -/
def text (started : Timestamp) (settingsPath : Path) (t : FileTree) : String :=
  "\n".intercalate (entries started settingsPath t)

end Banner

end ChipSettings
