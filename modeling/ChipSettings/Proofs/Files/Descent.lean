import ChipSettings.Proofs.Files.PlainPath
import Mathlib.Data.List.Infix

/-! # Down a Plain Path

  A plain path names a place, and the places on the way to it are named by its beginnings. So what
  an operation does at a plain path is told by what stands at these places and how long the names
  are.

  - `Path.Spells p l`: the path is plain, it is not refused, and it names the place. It is
    `pathTo l` then, and the directories above it are `pathsTo` the directory.
  - `walk_down_eq_ok_iff`: a walk down leads to the place if something is there.
  - `Passable t l`: no name on the way is too long, and no file stands in it.
    `makeDirectories_eq_ok_iff`: this is when all directories can be made.
  - `MadeDown l t t'`: what the tree is then.
  - `exists_write_iff`: a file can be written if the directory above is there, and is one.
-/

namespace ChipSettings.Files

open Text

/-! ## Places and Their Paths -/

/-- The place that a plain path names. -/
def Path.place (p : Path) : Location := p.segments.reverse

/-- The plain path of a place. -/
def pathTo (l : Location) : Path := ⟨String.ofList (joinSlashes l.reverse)⟩

/-- The paths of a place and of the places above it, nearest first. -/
def pathsTo : Location → List Path
  | [] => []
  | name :: dir => pathTo (name :: dir) :: pathsTo dir

/-- The nearest directory above a path of names has all names but the last one. -/
theorem ancestorsFrom_cons {first name : List Char} {before : List (List Char)}
    (hname : isFiller name = false) (h : ∀ segment ∈ before ++ [first], isFiller segment = false) :
    ancestorsFrom first (name :: before) =
      pathTo (before ++ [first]) :: ancestorsFrom first before := by
  rw [ancestorsFrom, if_neg (by rw [hname]; exact Bool.false_ne_true)]
  cases before with
  | nil =>
    have hfirst : first ≠ [] := by
      rintro rfl
      cases h [] List.mem_cons_self
    simp only [List.dropWhile_nil, if_neg hfirst]
    rfl
  | cons segment before =>
    have hsegment : isFiller segment = false := h segment List.mem_cons_self
    rw [List.dropWhile_cons_of_neg (by rw [hsegment]; exact Bool.false_ne_true)]
    simp [pathTo]

/-- So it is with the directories above that one. -/
theorem ancestorsFrom_eq {first name : List Char} {before : List (List Char)}
    (hname : isFiller name = false) (h : ∀ segment ∈ before ++ [first], isFiller segment = false) :
    ancestorsFrom first (name :: before) = pathsTo (before ++ [first]) := by
  rw [ancestorsFrom_cons hname h]
  induction before generalizing name with
  | nil => rfl
  | cons segment before ih =>
    obtain ⟨hsegment, hlater⟩ := List.forall_mem_cons.1 h
    rw [ancestorsFrom_cons hsegment hlater, ih hsegment hlater]
    rfl

/-! ## Plain Paths of Places -/

/-- The path is plain, and it is not refused before it is looked at what is there. -/
structure Path.Spells (p : Path) (l : Location) : Prop where
  isPlain : p.isPlain = true
  checked : FileTree.checkPath p = .ok ()
  place_eq : p.place = l

/-- All places on the way have paths that are not refused. -/
def Spellable (l : Location) : Prop := ∀ k, k <:+ l → k ≠ [] → (pathTo k).Spells k

theorem exists_of_mem_pathsTo {p : Path} {l : Location} (h : p ∈ pathsTo l) :
    ∃ k, k <:+ l ∧ k ≠ [] ∧ p = pathTo k := by
  induction l with
  | nil => cases h
  | cons name dir ih =>
    rcases List.mem_cons.1 h with rfl | h
    · exact ⟨_, List.suffix_rfl, List.cons_ne_nil name dir, rfl⟩
    · obtain ⟨k, hk, hne, rfl⟩ := ih h
      exact ⟨k, hk.trans (List.suffix_cons name dir), hne, rfl⟩

theorem not_suffix_cons (name : List Char) (dir : Location) : ¬ name :: dir <:+ dir := by
  intro h
  have hlength := h.length_le
  rw [List.length_cons] at hlength
  omega

theorem Spellable.of_cons {name : List Char} {dir : Location} (h : Spellable (name :: dir)) :
    Spellable dir := fun k hk => h k (hk.trans (List.suffix_cons name dir))

namespace Path.Spells

variable {p : Path} {l k dir : Location} {name : List Char}

/-- The system refuses no plain path but for a null character or for its length. -/
theorem of_isPlain (hplain : p.isPlain = true) (hnull : '\x00' ∉ p.text.toList)
    (hlimit : byteLength p.text.toList < FileTree.pathLimit) : p.Spells p.place where
  isPlain := hplain
  checked := by
    have hne : p.text ≠ "" := by
      intro hempty
      rw [Path.isPlain, segments, hempty] at hplain
      cases hplain
    rw [FileTree.checkPath, if_neg hnull, if_neg hne, if_neg (Nat.not_le.2 hlimit)]
  place_eq := rfl

theorem segments_eq (h : p.Spells l) : p.segments = l.reverse := by
  rw [← h.place_eq, place, List.reverse_reverse]

theorem ne_nil (h : p.Spells l) : l ≠ [] := by
  rintro rfl
  exact splitSlashes_ne_nil _ h.segments_eq

/-- A path is the path of its place. -/
theorem eq_pathTo (h : p.Spells l) : p = pathTo l := by
  have htext : p.text.toList = joinSlashes l.reverse := by
    rw [← h.segments_eq]
    exact (joinSlashes_splitSlashes _).symm
  rw [pathTo, ← htext, String.ofList_toList]

theorem isName_of_mem (h : p.Spells l) (hname : name ∈ l) : isName name = true := by
  have hplain := List.all_eq_true.1 h.isPlain
  rw [h.segments_eq] at hplain
  exact hplain name (List.mem_reverse.2 hname)

theorem slash_not_mem (h : p.Spells l) (hname : name ∈ l) : '/' ∉ name := by
  have hmem : name ∈ splitSlashes p.text.toList := by
    rw [show splitSlashes p.text.toList = l.reverse from h.segments_eq]
    exact List.mem_reverse.2 hname
  exact slash_not_mem_of_mem_splitSlashes hmem

theorem steps_eq (h : p.Spells l) : p.steps = l.reverse.map .down := by
  rw [steps_of_isPlain h.isPlain, h.segments_eq]

/-- The beginnings of a path are not refused either. -/
theorem spellable (h : p.Spells l) : Spellable l := by
  intro k hk hne
  have hsegments : (pathTo k).segments = k.reverse := by
    rw [segments, pathTo, String.toList_ofList]
    refine splitSlashes_joinSlashes (List.reverse_ne_nil_iff.2 hne) fun name hname => ?_
    exact h.slash_not_mem (hk.subset (List.mem_reverse.1 hname))
  refine ⟨?_, ?_, by rw [place, hsegments, List.reverse_reverse]⟩
  · rw [Path.isPlain, hsegments, List.all_eq_true]
    exact fun name hname => h.isName_of_mem (hk.subset (List.mem_reverse.1 hname))
  · refine FileTree.checkPath_of_beginning h.checked ?_ ?_
    · obtain ⟨more, rfl⟩ := hk
      rw [h.eq_pathTo, pathTo, pathTo, String.toList_ofList, String.toList_ofList,
        List.reverse_append]
      exact joinSlashes_prefix (List.reverse_ne_nil_iff.2 hne) _
    · -- the empty text has an empty segment, which is no name
      intro hempty
      rw [segments, hempty] at hsegments
      have hmem : [] ∈ k := List.mem_reverse.1 (hsegments ▸ List.mem_singleton_self [])
      cases h.isName_of_mem (hk.subset hmem)

/-- A plain path does not end in a slash. -/
theorem namesDirectory_eq_false (h : p.Spells l) : p.namesDirectory = false := by
  obtain ⟨name, dir, rfl⟩ := List.exists_cons_of_ne_nil h.ne_nil
  have hname : name ≠ [] := by
    rintro rfl
    cases h.isName_of_mem List.mem_cons_self
  rw [namesDirectory, h.eq_pathTo, pathTo, String.toList_ofList, List.reverse_cons,
    getLast?_joinSlashes _ hname, beq_eq_false_iff_ne]
  exact fun hslash => h.slash_not_mem List.mem_cons_self (List.mem_of_getLast? hslash)

/-- The directories above a plain path have plain paths. -/
theorem ancestors_eq (h : p.Spells (name :: dir)) : p.ancestors = pathsTo dir := by
  have hplain (segment : List Char) (hmem : segment ∈ name :: dir) : isFiller segment = false := by
    have hname := h.isName_of_mem hmem
    simp only [isName, Bool.and_eq_true, bne_iff_ne] at hname
    simp [isFiller, hname]
  unfold ancestors
  rw [h.segments_eq]
  rcases List.eq_nil_or_concat dir with rfl | ⟨before, first, rfl⟩
  · rfl
  · rw [List.concat_eq_append] at hplain ⊢
    rw [List.reverse_cons, List.reverse_concat]
    show ancestorsFrom first (before.reverse ++ [name]).reverse = _
    rw [List.reverse_concat, List.reverse_reverse]
    exact ancestorsFrom_eq (hplain name List.mem_cons_self)
      fun segment hmem => hplain segment (List.mem_cons_of_mem name hmem)

end Path.Spells

namespace FileTree

variable {t t' : FileTree} {p : Path} {l k dir : Location} {name : List Char}

/-! ## Walking Down -/

/-- The names on the way to a place are not too long. -/
def ShortNames (l : Location) : Prop := ∀ name ∈ l, byteLength name ≤ nameLimit

/-- Above a directory there are directories only. -/
theorem directory_of_suffix (hl : t.entry l = some .directory) (hk : k <:+ l) :
    t.entry k = some .directory := by
  induction l with
  | nil => rwa [List.suffix_nil.1 hk]
  | cons name dir ih =>
    rcases List.suffix_cons_iff.1 hk with rfl | hk
    · exact hl
    · exact ih (t.parent_directory name dir (by rw [hl]; nofun)) hk

/-- A walk down leads to its place if the names are not too long and something is there. -/
theorem walk_down_eq_ok_iff : t.walk [] (l.reverse.map .down) = .ok k ↔
    k = l ∧ ShortNames l ∧ t.entry l ≠ none := by
  induction l generalizing k with
  | nil =>
    have hroot : t.entry [] ≠ none := by
      rw [t.root_directory]
      nofun
    show Except.ok [] = .ok k ↔ k = [] ∧ ShortNames [] ∧ t.entry [] ≠ none
    simp [hroot, ShortNames, eq_comm]
  | cons name dir ih =>
    -- the place is reached by one more step from the directory above
    rw [List.reverse_cons, List.map_append, walk_append]
    constructor
    · intro h
      obtain ⟨next, hwalk, hlast⟩ := exists_of_bind_eq_ok h
      obtain ⟨rfl, hshort, -⟩ := ih.1 hwalk
      obtain ⟨next, hstep, hlast⟩ := exists_of_bind_eq_ok hlast
      cases hlast
      obtain ⟨hk, -, hname, hthere⟩ := step_down_eq_ok_iff.1 hstep
      exact ⟨hk, List.forall_mem_cons.2 ⟨hname, hshort⟩, hthere⟩
    · rintro ⟨rfl, hshort, hthere⟩
      obtain ⟨hname, hshort⟩ := List.forall_mem_cons.1 hshort
      have hdir := t.parent_directory name dir hthere
      have hwalk : t.walk [] (dir.reverse.map .down) = .ok dir :=
        ih.2 ⟨rfl, hshort, by rw [hdir]; nofun⟩
      have hstep : t.step dir (.down name) = .ok (name :: dir) :=
        step_down_eq_ok_iff.2 ⟨rfl, hdir, hname, hthere⟩
      rw [hwalk]
      show t.walk dir [.down name] = .ok (name :: dir)
      rw [walk, hstep]
      rfl

/-! ## Looking -/

/-- A plain path leads where the walk leads. -/
theorem locate_of_spells (h : p.Spells l) : t.locate p = t.walk [] (l.reverse.map .down) := by
  unfold locate
  rw [h.checked, h.steps_eq, h.namesDirectory_eq_false]
  cases hwalk : t.walk [] (l.reverse.map .down) with
  | error e => rfl
  | ok place =>
    simp only [bind, Except.bind, Bool.false_eq_true, if_false]
    split
    · rfl
    · rfl

/-- What is found at a plain path is what stands at its place. -/
theorem find?_eq_some_iff {e : Entry} (h : p.Spells l) :
    t.find? p = some e ↔ ShortNames l ∧ t.entry l = some e := by
  have hwalk {k : Location} : t.locate p = .ok k ↔ k = l ∧ ShortNames l ∧ t.entry l ≠ none := by
    rw [locate_of_spells h, walk_down_eq_ok_iff]
  unfold find?
  constructor
  · intro hfind
    split at hfind
    · next place hlocate =>
      obtain ⟨rfl, hshort, -⟩ := hwalk.1 hlocate
      exact ⟨hshort, hfind⟩
    · cases hfind
  · rintro ⟨hshort, hentry⟩
    rw [hwalk.2 ⟨rfl, hshort, by rw [hentry]; nofun⟩]
    exact hentry

theorem contains_iff (h : p.Spells l) :
    t.contains p = true ↔ ShortNames l ∧ t.entry l ≠ none := by
  rw [contains, Option.isSome_iff_exists, Option.ne_none_iff_exists']
  simp only [find?_eq_some_iff h]
  exact exists_and_left

theorem isDirectory_iff (h : p.Spells l) :
    t.isDirectory p = true ↔ ShortNames l ∧ t.entry l = some .directory := by
  rw [← find?_eq_some_iff h, isDirectory]
  split
  · next hfind => exact iff_of_true rfl hfind
  · next hfind => exact iff_of_false Bool.false_ne_true hfind

/-! ## Writing -/

/-- The place of a new entry is found from the directory above. -/
theorem locateNew_of_spells (h : p.Spells (name :: dir)) :
    t.locateNew p = (t.walk [] (dir.reverse.map .down)).bind fun place =>
      if t.entry place = some .directory then .ok (some name, place)
      else .error .notADirectory := by
  have hsteps : p.steps = dir.reverse.map .down ++ [.down name] := by
    rw [h.steps_eq, List.reverse_cons, List.map_append]
    rfl
  unfold locateNew
  rw [h.checked, hsteps, List.dropLast_concat, List.getLast?_concat]
  show ((t.walk [] (dir.reverse.map .down)).bind fun place => _) = _
  refine congrArg _ (funext fun place => ?_)
  split
  · next hplace => exact (if_pos hplace).symm
  · next hplace => exact (if_neg hplace).symm

theorem locateNew_of_directory (h : p.Spells (name :: dir)) (hshort : ShortNames dir)
    (hdir : t.entry dir = some .directory) : t.locateNew p = .ok (some name, dir) := by
  rw [locateNew_of_spells h, walk_down_eq_ok_iff.2 ⟨rfl, hshort, by rw [hdir]; nofun⟩]
  exact if_pos hdir

/-- Where a file of a plain path is written, and when. -/
theorem writesTo_iff {last : List Char} {place : Location} (h : p.Spells (name :: dir)) :
    t.WritesTo p last place ↔ last :: place = name :: dir ∧ ShortNames (name :: dir) ∧
      t.entry dir = some .directory ∧ t.entry (name :: dir) ≠ some .directory := by
  constructor
  · intro hwrites
    have hplace := hwrites.place
    rw [locateNew_of_spells h] at hplace
    obtain ⟨between, hwalk, hfound⟩ := exists_of_bind_eq_ok hplace
    obtain ⟨rfl, hshort, -⟩ := walk_down_eq_ok_iff.1 hwalk
    split at hfound
    · next hdir =>
      cases hfound
      have hname := checkName_eq_ok_iff.1 hwrites.checked
      exact ⟨rfl, List.forall_mem_cons.2 ⟨hname, hshort⟩, hdir, hwrites.free⟩
    · cases hfound
  · rintro ⟨hplace, hshort, hdir, hfree⟩
    cases hplace
    obtain ⟨hname, hshort⟩ := List.forall_mem_cons.1 hshort
    exact ⟨locateNew_of_directory h hshort hdir, h.namesDirectory_eq_false,
      checkName_eq_ok_iff.2 hname, hfree⟩

/-- A file can be written to a plain path if the directory above is there, and is one. -/
theorem exists_write_iff (h : p.Spells (name :: dir)) (content : ByteArray) :
    (∃ t', t.write p content = .ok t') ↔ ShortNames (name :: dir) ∧
      t.entry dir = some .directory ∧ t.entry (name :: dir) ≠ some .directory := by
  constructor
  · rintro ⟨t', hwrite⟩
    obtain ⟨last, place, hwrites, -⟩ := exists_of_write hwrite
    exact ((writesTo_iff h).1 hwrites).2
  · intro hfree
    exact ((writesTo_iff h).2 ⟨rfl, hfree⟩).write content

/-- Then it stands at the place of the path, and all else is as before. -/
theorem entry_of_write {content : ByteArray} (h : p.Spells l)
    (hwrite : t.write p content = .ok t') :
    t'.entry l = some (.file content) ∧ ∀ k, k ≠ l → t'.entry k = t.entry k := by
  obtain ⟨name, dir, rfl⟩ := List.exists_cons_of_ne_nil h.ne_nil
  obtain ⟨last, place, hwrites, hnew, hsame⟩ := exists_of_write hwrite
  rw [((writesTo_iff h).1 hwrites).1] at hnew hsame
  exact ⟨hnew, hsame⟩

/-! ## Making Directories -/

/-- No name on the way to a place is too long, and no file stands in it or at its end. -/
structure Passable (t : FileTree) (l : Location) : Prop where
  short : ShortNames l
  noFile : ∀ k, k <:+ l → ∀ b, t.entry k ≠ some (.file b)

theorem Passable.of_cons (h : t.Passable (name :: dir)) : t.Passable dir where
  short := (List.forall_mem_cons.1 h.short).2
  noFile k hk := h.noFile k (hk.trans (List.suffix_cons name dir))

/-- What stands at the end of the way is a directory, if anything is. -/
theorem Passable.directory (h : t.Passable l) (hthere : t.entry l ≠ none) :
    t.entry l = some .directory := by
  obtain ⟨e, he⟩ := Option.ne_none_iff_exists'.1 hthere
  cases e with
  | file b => exact absurd he (h.noFile l List.suffix_rfl b)
  | directory => exact he

/-- The second tree is the first one with all directories down to the place. -/
structure MadeDown (l : Location) (t t' : FileTree) : Prop where
  directory : ∀ k, k <:+ l → t'.entry k = some .directory
  same : ∀ k, ¬ k <:+ l → t'.entry k = t.entry k

/-- Nothing has to be made where the last directory is there. -/
theorem MadeDown.refl (h : t.entry l = some .directory) : MadeDown l t t where
  directory _ hk := directory_of_suffix h hk
  same _ _ := rfl

/-- Where nothing is in the way and nothing is at its end, the walk stops at what is missing. -/
theorem walk_down_of_missing (h : t.Passable l) (hnone : t.entry l = none) :
    t.walk [] (l.reverse.map .down) = .error .notFound := by
  induction l with
  | nil =>
    rw [t.root_directory] at hnone
    cases hnone
  | cons name dir ih =>
    rw [List.reverse_cons, List.map_append, walk_append]
    by_cases hdir : t.entry dir = none
    · rw [ih h.of_cons hdir]
      rfl
    · -- the directory above is there, so that the last step fails
      have hdirectory := h.of_cons.directory hdir
      have hname := checkName_eq_ok_iff.2 (h.short name List.mem_cons_self)
      rw [walk_down_eq_ok_iff.2 ⟨rfl, h.of_cons.short, hdir⟩]
      show t.walk dir [.down name] = .error .notFound
      simp only [walk, step, hdirectory, hname, hnone, bind, Except.bind, throw, throwThe,
        MonadExceptOf.throw]

/-- Making a directory fails for want of the one above if that is missing. -/
theorem makeDirectory_of_missing (h : p.Spells (name :: dir)) (hpass : t.Passable dir)
    (hdir : t.entry dir = none) : t.makeDirectory p = .error .notFound := by
  have hplace : t.locateNew p = .error .notFound := by
    rw [locateNew_of_spells h, walk_down_of_missing hpass hdir]
    rfl
  simp only [makeDirectory, hplace]

/-- A directory can be made in one that is there. -/
theorem exists_makeDirectory (h : p.Spells (name :: dir)) (hshort : ShortNames (name :: dir))
    (hdir : t.entry dir = some .directory) (hnone : t.entry (name :: dir) = none) :
    ∃ t', t.makeDirectory p = .ok t' := by
  obtain ⟨hname, hshort⟩ := List.forall_mem_cons.1 hshort
  simp only [makeDirectory, locateNew_of_directory h hshort hdir, checkName_eq_ok_iff.2 hname,
    dif_pos hdir, hnone]
  exact ⟨_, rfl⟩

/-- A directory that is there is not made again. -/
theorem makeDirectory_of_there {e : Entry} (h : p.Spells (name :: dir))
    (hshort : ShortNames (name :: dir)) (hthere : t.entry (name :: dir) = some e) :
    t.makeDirectory p = .error .alreadyExists := by
  obtain ⟨hname, hshort⟩ := List.forall_mem_cons.1 hshort
  have hdir := t.parent_directory name dir (by rw [hthere]; nofun)
  simp only [makeDirectory, locateNew_of_directory h hshort hdir, checkName_eq_ok_iff.2 hname,
    dif_pos hdir, hthere]

/-- Where all directories could be made, nothing was in the way, and they are there. -/
theorem madeDown_of_makeDirectories (hspells : Spellable l)
    (h : t.makeDirectories (pathsTo l) = (.ok (), t')) : t.Passable l ∧ MadeDown l t t' := by
  have hgrown := grownBy_makeDirectories t (pathsTo l)
  rw [h] at hgrown
  obtain ⟨hshort, hl⟩ : ShortNames l ∧ t'.entry l = some .directory := by
    cases l with
    | nil => exact ⟨nofun, t'.root_directory⟩
    | cons name dir =>
      have hspelled := hspells _ List.suffix_rfl (List.cons_ne_nil name dir)
      exact (isDirectory_iff hspelled).1 (isDirectory_of_makeDirectories h)
  have hdirectory (k : Location) (hk : k <:+ l) := directory_of_suffix hl hk
  refine ⟨⟨hshort, fun k hk b hfile => ?_⟩, hdirectory, fun k hk => ?_⟩
  · rw [← hgrown.grown.file_iff, hdirectory k hk] at hfile
    cases hfile
  · -- what is new was made by one of the paths, and each of them leads to a place on the way
    by_contra hnew
    obtain ⟨dir, hdir, hlocate⟩ := hgrown.place k hnew
    obtain ⟨j, hj, hne, rfl⟩ := exists_of_mem_pathsTo hdir
    rw [locate_of_spells (hspells j hj hne), walk_down_eq_ok_iff] at hlocate
    exact hk (hlocate.1 ▸ hj)

/-- Where nothing is in the way, all directories can be made. -/
theorem exists_makeDirectories (hspells : Spellable l) (h : t.Passable l) :
    ∃ t', t.makeDirectories (pathsTo l) = (.ok (), t') := by
  induction l with
  | nil => exact ⟨t, rfl⟩
  | cons name dir ih =>
    have hspelled := hspells _ List.suffix_rfl (List.cons_ne_nil name dir)
    by_cases hdir : t.entry dir = none
    · -- the ones above are made first, and then the last one in the tree with them
      obtain ⟨between, habove⟩ := ih hspells.of_cons h.of_cons
      obtain ⟨-, hmade⟩ := madeDown_of_makeDirectories hspells.of_cons habove
      have hnone : between.entry (name :: dir) = none := by
        rw [hmade.same _ (not_suffix_cons name dir)]
        by_contra hthere
        rw [t.parent_directory name dir hthere] at hdir
        cases hdir
      obtain ⟨t', hlast⟩ := exists_makeDirectory hspelled h.short
        (hmade.directory dir List.suffix_rfl) hnone
      refine ⟨t', ?_⟩
      simp only [pathsTo, makeDirectories, makeDirectory_of_missing hspelled h.of_cons hdir, habove,
        hlast]
    · have hdir := h.of_cons.directory hdir
      by_cases hthere : t.entry (name :: dir) = none
      · obtain ⟨t', hlast⟩ := exists_makeDirectory hspelled h.short hdir hthere
        refine ⟨t', ?_⟩
        simp only [pathsTo, makeDirectories, hlast]
      · have hthere := h.directory hthere
        refine ⟨t, ?_⟩
        simp only [pathsTo, makeDirectories, makeDirectory_of_there hspelled h.short hthere,
          (isDirectory_iff hspelled).2 ⟨h.short, hthere⟩, if_true]

theorem makeDirectories_eq_ok_iff (hspells : Spellable l) :
    (t.makeDirectories (pathsTo l)).1 = .ok () ↔ t.Passable l := by
  constructor
  · intro h
    exact (madeDown_of_makeDirectories hspells (Prod.ext h rfl)).1
  · intro h
    obtain ⟨t', hmade⟩ := exists_makeDirectories hspells h
    rw [hmade]

end FileTree

end ChipSettings.Files
