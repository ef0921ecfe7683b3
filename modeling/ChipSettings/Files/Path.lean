/-! # Paths

  A path is kept as it was given, because messages show it that way. What it means is
  read off its segments, the texts between slashes:

  - `Path.steps`: how to walk to the place it names. Empty segments do not count.
  - `Path.ancestors`: the paths of the directories above it, nearest first, each
    spelled as the beginning of the path. A segment that is empty or a single dot
    names no directory of its own, except a dot that the path starts with.
-/

namespace ChipSettings.Files

/-- A path, as it was given. -/
structure Path where
  text : String
deriving DecidableEq, Inhabited

/-- One step of a walk through directories. -/
inductive Step where
  /-- A single dot: stay. -/
  | stay
  /-- Two dots: go to the directory above. -/
  | up
  /-- A name: go to the entry of that name. -/
  | down (name : List Char)
deriving DecidableEq

/-- The texts between slashes, empty ones included. -/
def splitSlashes : List Char → List (List Char)
  | [] => [[]]
  | c :: cs =>
    if c == '/' then [] :: splitSlashes cs
    else match splitSlashes cs with
      | [] => [[c]]
      | segment :: segments => (c :: segment) :: segments

/-- The text with these segments. -/
def joinSlashes : List (List Char) → List Char
  | [] => []
  | [segment] => segment
  | segment :: segments => segment ++ '/' :: joinSlashes segments

/-- The step that a segment stands for; an empty one stands for none. -/
def stepOf? (segment : List Char) : Option Step :=
  if segment = [] then none
  else if segment = ['.'] then some .stay
  else if segment = ['.', '.'] then some .up
  else some (.down segment)

/-- A segment that names no directory of its own, behind the start of a path. -/
def isFiller (segment : List Char) : Bool := segment == [] || segment == ['.']

/-- The directories above the place that is reached from `first` through `reversed`,
    the later segments in reverse; nearest first. -/
def ancestorsFrom (first : List Char) : (reversed : List (List Char)) → List Path
  | [] => []
  | segment :: before =>
    if isFiller segment then ancestorsFrom first before
    else
      let above := match before.dropWhile isFiller with
        | [] => if first = [] then ['/'] else first
        | kept => joinSlashes (first :: kept.reverse)
      ⟨String.ofList above⟩ :: ancestorsFrom first before

namespace Path

/-- The segments of the path. -/
def segments (p : Path) : List (List Char) := splitSlashes p.text.toList

/-- The walk to the place the path names. -/
def steps (p : Path) : List Step := p.segments.filterMap stepOf?

/-- Does the path start at the root? -/
def isAbsolute (p : Path) : Bool := p.text.toList.head? == some '/'

/-- Does the path end in a slash, so that it can only name a directory? -/
def namesDirectory (p : Path) : Bool := p.text.toList.getLast? == some '/'

/-- The directories above the place the path names, nearest first. -/
def ancestors (p : Path) : List Path :=
  match p.segments with
  | [] => []
  | first :: later => ancestorsFrom first later.reverse

/-- The path of an entry inside this directory; a slash is put between unless there is
    one already. -/
def join (p : Path) (name : String) : Path :=
  if p.text.isEmpty || p.namesDirectory then ⟨p.text ++ name⟩ else ⟨p.text ++ "/" ++ name⟩

end Path

end ChipSettings.Files
