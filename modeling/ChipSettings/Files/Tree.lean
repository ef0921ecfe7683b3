import ChipSettings.Files.Path
import ChipSettings.Text.Quoted

/-! # File Trees

  A file tree says what is found at each location: nothing, a file with its bytes, or
  a directory. The root is a directory, and so is whatever an entry lies in; both facts
  are part of the type, and every operation keeps them.

  - `locate` walks a path and finds out where it leads, or why it leads nowhere.
  - `read`, `write`, `makeDirectory` and `remove` act on one entry; they fail without
    a trace.
  - `makeDirectories` makes a directory and those above it; where it fails, the ones
    made before stay.

  Walking up from the root stays at the root.
-/

namespace ChipSettings.Files

open Text

/-! ## Errors -/

/-- Why an operation on files failed. -/
inductive IoError where
  | notFound
  | alreadyExists
  /-- An entry that is no directory stands where one is needed. -/
  | notADirectory
  /-- A directory stands where a file is needed. -/
  | isADirectory
  /-- A name or a path is longer than the system allows. -/
  | nameTooLong
  /-- The path holds a null character. -/
  | nullInPath
  /-- The file is not text in UTF-8. -/
  | notText
  /-- Any other failure, in the system's words. -/
  | other (description : String)
deriving DecidableEq

/-- The system's words for an error. -/
def IoError.message : IoError → String
  | notFound => "No such file or directory (os error 2)"
  | alreadyExists => "File exists (os error 17)"
  | notADirectory => "Not a directory (os error 20)"
  | isADirectory => "Is a directory (os error 21)"
  | nameTooLong => "File name too long (os error 36)"
  | nullInPath => "file name contained an unexpected NUL byte"
  | notText => "stream did not contain valid UTF-8"
  | other description => description

/-! ## Trees -/

/-- A place in a file tree: the names on the way to it, the last one first. -/
abbrev Location := List (List Char)

/-- What stands at a place. -/
inductive Entry where
  | file (content : ByteArray)
  | directory

/-- Whether a directory stands at a place can be decided. -/
instance decidableEqDirectory (e : Option Entry) : Decidable (e = some .directory) :=
  match e with
  | some .directory => isTrue rfl
  | some (.file _) => isFalse (by simp)
  | none => isFalse (by simp)

/-- A file tree. -/
structure FileTree where
  /-- What stands at each place. -/
  entry : Location → Option Entry
  /-- The root is a directory. -/
  root_directory : entry [] = some .directory
  /-- Whatever an entry lies in is a directory. -/
  parent_directory : ∀ name dir, entry (name :: dir) ≠ none → entry dir = some .directory

namespace FileTree

/-- The tree of an empty directory. -/
def empty : FileTree where
  entry l := if l = [] then some .directory else none
  root_directory := rfl
  parent_directory name dir h := by simp at h

instance : Inhabited FileTree := ⟨empty⟩

/-- Put an entry into a directory. A directory that is there already must stay one. -/
def put (t : FileTree) (name : List Char) (dir : Location) (e : Entry)
    (hdir : t.entry dir = some .directory)
    (hold : t.entry (name :: dir) = some .directory → e = .directory) : FileTree where
  entry l := if l = name :: dir then some e else t.entry l
  root_directory := by simp [t.root_directory]
  parent_directory n d h := by
    by_cases hd : d = name :: dir
    · subst hd
      have hne : n :: name :: dir ≠ name :: dir := fun heq => by
        have := congrArg List.length heq
        simp at this
      rw [if_neg hne] at h
      simp [hold (t.parent_directory _ _ h)]
    · rw [if_neg hd]
      by_cases hn : n :: d = name :: dir
      · simp only [List.cons.injEq] at hn
        rw [hn.2]; exact hdir
      · rw [if_neg hn] at h
        exact t.parent_directory _ _ h

/-- Remove an entry other than the root, and all that lies in it. -/
def erase (t : FileTree) (l : Location) (hl : l ≠ []) : FileTree where
  entry k := if l.isSuffixOf k then none else t.entry k
  root_directory := by
    have : l.isSuffixOf [] = false := by cases l <;> simp_all [List.isSuffixOf]
    simp [this, t.root_directory]
  parent_directory n d h := by
    by_cases hs : l.isSuffixOf (n :: d) = true
    · simp [hs] at h
    · have hd : ¬ l.isSuffixOf d = true := fun hd => hs <| by
        rw [List.isSuffixOf_iff_suffix] at hd ⊢
        exact hd.trans (List.suffix_cons n d)
      rw [if_neg hs] at h
      rw [if_neg hd]
      exact t.parent_directory _ _ h

@[simp] theorem entry_put_self (t : FileTree) (name : List Char) (dir : Location) (e : Entry)
    (hdir : t.entry dir = some .directory)
    (hold : t.entry (name :: dir) = some .directory → e = .directory) :
    (t.put name dir e hdir hold).entry (name :: dir) = some e := by
  simp [put]

theorem entry_put_of_ne (t : FileTree) (name : List Char) (dir : Location) (e : Entry)
    (hdir : t.entry dir = some .directory)
    (hold : t.entry (name :: dir) = some .directory → e = .directory) {l : Location}
    (h : l ≠ name :: dir) : (t.put name dir e hdir hold).entry l = t.entry l := by
  simp [put, h]

/-! ## Walking a Path -/

/-- A name has at most 255 bytes. -/
def nameLimit : Nat := 255

/-- A path has fewer than 4096 bytes. -/
def pathLimit : Nat := 4096

/-- Paths that the system refuses before it looks at the tree. -/
def checkPath (p : Path) : Except IoError Unit :=
  if '\x00' ∈ p.text.toList then .error .nullInPath
  else if p.text = "" then .error .notFound
  else if pathLimit ≤ byteLength p.text.toList then .error .nameTooLong
  else .ok ()

/-- Refuse a name that is too long. -/
def checkName (name : List Char) : Except IoError Unit :=
  if nameLimit < byteLength name then .error .nameTooLong else .ok ()

/-- Take one step from a place, which has to be a directory. -/
def step (t : FileTree) (place : Location) (s : Step) : Except IoError Location :=
  match t.entry place with
  | some .directory => match s with
    | .stay => .ok place
    | .up => .ok place.tail
    | .down name => do
      checkName name
      match t.entry (name :: place) with
      | some _ => return name :: place
      | none => throw .notFound
  | _ => .error .notADirectory

/-- Take all steps from a place. -/
def walk (t : FileTree) (place : Location) : List Step → Except IoError Location
  | [] => .ok place
  | s :: steps => do t.walk (← t.step place s) steps

/-- The place a path leads to. A path that ends in a slash leads to directories only. -/
def locate (t : FileTree) (p : Path) : Except IoError Location := do
  checkPath p
  let place ← t.walk [] p.steps
  match t.entry place with
  | some (.file _) => if p.namesDirectory then throw .notADirectory else return place
  | _ => return place

/-- Where a path would put a new entry: a name in a directory, or the directory that
    the path names without a name. -/
def locateNew (t : FileTree) (p : Path) : Except IoError (Option (List Char) × Location) := do
  checkPath p
  let dir ← t.walk [] p.steps.dropLast
  match t.entry dir with
  | some .directory => match p.steps.getLast? with
    | some (.down name) => return (some name, dir)
    | _ => return (none, dir)
  | _ => throw .notADirectory

/-! ## Looking -/

/-- What stands where a path leads, if it leads anywhere. -/
def find? (t : FileTree) (p : Path) : Option Entry :=
  match t.locate p with
  | .ok place => t.entry place
  | .error _ => none

/-- Does the path lead to a file or a directory? -/
def contains (t : FileTree) (p : Path) : Bool := (t.find? p).isSome

/-- Does the path lead to a directory? -/
def isDirectory (t : FileTree) (p : Path) : Bool :=
  match t.find? p with
  | some .directory => true
  | _ => false

/-- The bytes of a file. -/
def read (t : FileTree) (p : Path) : Except IoError ByteArray := do
  match t.entry (← t.locate p) with
  | some (.file content) => return content
  | some .directory => throw .isADirectory
  | none => throw .notFound

/-- The text of a file, which has to be UTF-8. -/
def readText (t : FileTree) (p : Path) : Except IoError String := do
  match String.fromUTF8? (← t.read p) with
  | some text => return text
  | none => throw .notText

/-! ## Changing -/

/-- Write a file, replacing its bytes if it is there. No directory is made. -/
def write (t : FileTree) (p : Path) (content : ByteArray) : Except IoError FileTree :=
  match t.locateNew p with
  | .error e => .error e
  | .ok (none, _) => .error .isADirectory
  | .ok (some name, dir) =>
    if p.namesDirectory then .error .isADirectory
    else match checkName name with
      | .error e => .error e
      | .ok _ =>
        if hdir : t.entry dir = some .directory then
          if hold : t.entry (name :: dir) = some .directory then .error .isADirectory
          else .ok (t.put name dir (.file content) hdir (fun h => absurd h hold))
        else .error .notADirectory

/-- Write a text as a file in UTF-8. -/
def writeText (t : FileTree) (p : Path) (text : String) : Except IoError FileTree :=
  t.write p text.toUTF8

/-- Make one directory in an existing one. -/
def makeDirectory (t : FileTree) (p : Path) : Except IoError FileTree :=
  match t.locateNew p with
  | .error e => .error e
  | .ok (none, _) => .error .alreadyExists
  | .ok (some name, dir) =>
    match checkName name with
    | .error e => .error e
    | .ok _ =>
      if hdir : t.entry dir = some .directory then
        match t.entry (name :: dir) with
        | some _ => .error .alreadyExists
        | none => .ok (t.put name dir .directory hdir (fun _ => rfl))
      else .error .notADirectory

/-- Make the first of a list of directories, each of which lies in the next; those
    missing are made first. An error leaves the ones made before it. -/
def makeDirectories (t : FileTree) : List Path → Except IoError Unit × FileTree
  | [] => (.ok (), t)
  | p :: above =>
    let orThere (t : FileTree) (e : IoError) : Except IoError Unit × FileTree :=
      if t.isDirectory p then (.ok (), t) else (.error e, t)
    match t.makeDirectory p with
    | .ok made => (.ok (), made)
    | .error .notFound => match t.makeDirectories above with
      | (.error e, t) => (.error e, t)
      | (.ok _, t) => match t.makeDirectory p with
        | .ok made => (.ok (), made)
        | .error e => orThere t e
    | .error e => orThere t e

/-- Make the directory a path names, and those above it. The empty path names none. -/
def makePath (t : FileTree) (p : Path) : Except IoError Unit × FileTree :=
  if p.text = "" then (.ok (), t) else t.makeDirectories (p :: p.ancestors)

/-- Remove a file, or a directory and all that lies in it. -/
def remove (t : FileTree) (p : Path) : Except IoError FileTree :=
  match t.locate p with
  | .error e => .error e
  | .ok place =>
    if h : place = [] then .error (.other "Invalid argument (os error 22)")
    else .ok (t.erase place h)

end FileTree

end ChipSettings.Files
