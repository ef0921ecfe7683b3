import ChipSettings.Codec
import ChipSettings.Product

/-! # The Settings Store

  A store keeps the current settings in one fixed file, and writes and reads settings
  at any other path with the same codec.

  - Reading the fixed file gives the defaults when there is no such file.
  - Writing the fixed file makes the directories it lies in; writing elsewhere makes
    none.
  - A profile is serialized before anything is written, so that a codec that refuses
    leaves every file as it is.
-/

namespace ChipSettings

open Files

/-- A store of settings. -/
structure Store where
  /-- The fixed file of the current settings. -/
  currentPath : Path
  codec : Codec

namespace Store

/-! ## The Fixed File of a User -/

/-- The directory for the data of a user's applications: `dataHome` if it is an
    absolute path, or else a fixed place in the user's home. -/
def dataDirectory (home : Path) (dataHome : Option Path) : Path :=
  match dataHome.filter Path.isAbsolute with
  | some dir => dir
  | none => home.join ".local/share"

/-- The fixed file in a data directory. -/
def pathIn (dataDirectory : Path) : Path :=
  (dataDirectory.join Product.directoryName).join Product.currentFileName

/-- The store of settings documents at a path. -/
def atPath (path : Path) : Store := ⟨path, .xml⟩

/-! ## Reading -/

/-- Read the profile of a file. -/
def importFrom (s : Store) (t : FileTree) (path : Path) : Except SettingsError Profile := do
  let text ← (t.readText path).mapError (.io path)
  s.codec.deserialize text

/-- Read the fixed file; without one, the defaults are current. -/
def loadCurrent (s : Store) (t : FileTree) : Except SettingsError Profile :=
  if t.contains s.currentPath then s.importFrom t s.currentPath else .ok .default

/-- Read the fixed file, and take the defaults if it cannot be read. -/
def loadOrDefault (s : Store) (t : FileTree) : Profile :=
  match s.loadCurrent t with
  | .ok p => p
  | .error _ => .default

/-! ## Writing -/

/-- Write a profile to a file. -/
def exportTo (s : Store) (t : FileTree) (p : Profile) (path : Path) :
    Except SettingsError FileTree := do
  let text ← s.codec.serialize p
  (t.writeText path text).mapError (.io path)

/-- Make the directory of the fixed file, unless it is there. -/
def prepareDirectory (s : Store) (t : FileTree) : Except SettingsError Unit × FileTree :=
  match s.currentPath.ancestors with
  | [] => (.ok (), t)
  | dir :: above =>
    if t.contains dir then (.ok (), t)
    else
      let (result, t) := t.makeDirectories (dir :: above)
      (result.mapError (.io dir), t)

/-- Write a profile to the fixed file, making its directory first. The directories
    stay even if writing fails. -/
def persistCurrent (s : Store) (t : FileTree) (p : Profile) :
    Except SettingsError Unit × FileTree :=
  match s.prepareDirectory t with
  | (.error e, t) => (.error e, t)
  | (.ok _, t) => match s.exportTo t p s.currentPath with
    | .error e => (.error e, t)
    | .ok written => (.ok (), written)

end Store

end ChipSettings
