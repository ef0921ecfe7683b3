import ChipSettings.Files.Tree

/-! # File Commands

  What happens to files from outside the application: somebody writes, makes, removes
  or looks at them. A command that fails leaves the files as they are, except that
  directories made on the way stay.
-/

namespace ChipSettings.Files

/-- A command on files. -/
inductive FileCommand where
  /-- Write a file, without making directories. -/
  | write (path : Path) (content : ByteArray)
  /-- Make a directory and those above it. -/
  | makePath (path : Path)
  /-- Remove a file or a directory with all that lies in it. -/
  | remove (path : Path)
  /-- Ask what stands where a path leads. -/
  | find (path : Path)
  /-- Read a file as text. -/
  | read (path : Path)

/-- What a command on files answers. -/
inductive FileReply where
  | done
  | failed (path : Path) (cause : IoError)
  | found (entry : Option Entry)
  | content (text : Option String)

/-- The reply to a change that may fail, and the files after it. -/
def FileTree.settle (t : FileTree) (path : Path) :
    Except IoError FileTree → FileReply × FileTree
  | .ok changed => (.done, changed)
  | .error cause => (.failed path cause, t)

/-- Carry out a command on files. -/
def FileTree.perform (t : FileTree) : FileCommand → FileReply × FileTree
  | .write path content => t.settle path (t.write path content)
  | .makePath path => match t.makePath path with
    | (.ok _, t) => (.done, t)
    | (.error cause, t) => (.failed path cause, t)
  | .remove path => t.settle path (t.remove path)
  | .find path => (.found (t.find? path), t)
  | .read path => (.content (t.readText path).toOption, t)

end ChipSettings.Files
