import ChipSettings.Validation

/-! # The Panels of the Window

  Besides the settings dialog, the window has a command bar, a panel with the current profile
  and an event log.

  - A `Command` is typed at the command line or pressed as a button. Its name counts in any
    ASCII case, and blanks around it do not count.
  - `Panel.texts` is the read-only view of the current profile: a heading, then a label and a
    value for each layer kind and each numeric field. A value without text is not shown.
  - A `LogEntry` tells the user what was done, and is of a kind that decides how it is shown.
-/

namespace ChipSettings

open Text

/-! ## Commands -/

/-- A command of the application. -/
inductive Command where
  /-- Open the settings dialog. -/
  | settings
deriving DecidableEq, Inhabited

namespace Command

/-- All commands. -/
def all : List Command := [settings]

/-- The name that is typed. -/
def name : Command → String
  | settings => "MicadoSettings"

/-- What the command is for. -/
def description : Command → String
  | settings => "Edit, import and export Micado settings"

/-- Do two texts differ only in the case of ASCII letters? -/
def sameName (a b : String) : Bool :=
  a.toList.map Char.toLower == b.toList.map Char.toLower

/-- The command that a typed line names. -/
def ofLine? (line : String) : Option Command :=
  all.find? fun command => sameName command.name (trim line)

end Command

/-! ## The Panel of Current Settings -/

namespace Panel

/-- Heading of the panel. -/
def heading : String := "Current Settings"

/-- The names of a layer list in words. -/
def layersText (names : List String) : String :=
  if names.isEmpty then "(none)" else ", ".intercalate names

/-- The texts of the panel, in order. -/
def texts (p : Profile) : List String :=
  let layers := LayerKind.all.flatMap fun k => [k.label, layersText (p.layers k)]
  let numbers := Field.all.flatMap fun f => [f.label, f.read p]
  (heading :: layers ++ numbers).filter (!·.isEmpty)

end Panel

/-! ## The Event Log -/

/-- The kind of a log entry. -/
inductive LogKind where
  | info
  | warning
  | error
  /-- A command was run. -/
  | command
  /-- A field was refused. -/
  | validation
deriving DecidableEq

/-- An entry of the event log. -/
structure LogEntry where
  kind : LogKind
  message : String
deriving DecidableEq

end ChipSettings
