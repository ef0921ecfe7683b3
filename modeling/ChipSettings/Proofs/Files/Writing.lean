import ChipSettings.Proofs.Files.Walking

/-! # Writing a File

  A write changes the tree at one place, and the place depends on the path and on the
  directories of the tree alone.

  - `WritesTo t p name dir`: the path leads to this name in this directory, and a file may
    stand there. `exists_of_write`: a write that succeeds puts the file there and changes
    nothing else. `WritesTo.write`: it succeeds for every content.
  - `find?_eq_file_iff`: a file is found where it would be written.
  - `SameFile t p q`: two paths name the same file, be it there or not. A write to one path
    leaves what other files hold as it is (`find?_file_iff_of_write`).
-/

namespace ChipSettings.Files.FileTree

/-! ## Places in Trees with the Same Directories -/

section Directories

variable {t t' : FileTree} {p : Path} {name : List Char} {dir place : Location}

/-- A walk that ends in a directory passes through directories only, so that it is the same in
    every tree that has these directories. -/
theorem walk_of_directories (hdirs : ∀ l, t.entry l = some .directory →
    t'.entry l = some .directory) {steps : List Step} (hw : t.walk place steps = .ok dir)
    (hdir : t.entry dir = some .directory) : t'.walk place steps = .ok dir := by
  induction steps generalizing place with
  | nil => exact hw
  | cons s steps ih =>
    obtain ⟨next, hs, hw⟩ := exists_of_bind_eq_ok hw
    have hrest := ih hw
    -- the place that the first step leads to is a directory: the walk goes on or ends there
    have hnext : t.entry next = some .directory := by
      cases steps with
      | nil => cases hw; exact hdir
      | cons s' steps =>
        obtain ⟨_, hs', -⟩ := exists_of_bind_eq_ok hw
        exact (step_eq_ok hs').1
    have hplace := (step_eq_ok hs).1
    have hplace' := hdirs place hplace
    have hstep : t'.step place s = .ok next := by
      cases s with
      | down name =>
        obtain ⟨rfl, -, hname, -⟩ := step_down_eq_ok_iff.1 hs
        exact step_down_eq_ok_iff.2 ⟨rfl, hplace', hname, by rw [hdirs _ hnext]; nofun⟩
      | stay => rwa [← step_congr (s := .stay) nofun (hplace.trans hplace'.symm)]
      | up => rwa [← step_congr (s := .up) nofun (hplace.trans hplace'.symm)]
    rw [walk, hstep]
    exact hrest

/-- A path for a new entry leads to the same place in every tree with these directories. -/
theorem locateNew_of_directories (hdirs : ∀ l, t.entry l = some .directory →
    t'.entry l = some .directory) (h : t.locateNew p = .ok (some name, dir)) :
    t'.locateNew p = .ok (some name, dir) := by
  obtain ⟨hcheck, hwalk, hdir, hsteps⟩ := locateNew_eq_ok h
  have hwalk' := walk_of_directories hdirs hwalk hdir
  have hlast : p.steps.getLast? = some (.down name) := by
    rw [hsteps, List.getLast?_concat]
  unfold locateNew
  rw [hcheck, hwalk']
  simp only [bind, Except.bind, hdirs dir hdir, hlast]
  rfl

end Directories

/-! ## Where a File Is Written -/

/-- A file can be written to the path: it leads to a name in a directory, and no directory
    stands there. -/
structure WritesTo (t : FileTree) (p : Path) (name : List Char) (dir : Location) : Prop where
  place : t.locateNew p = .ok (some name, dir)
  plain : p.namesDirectory = false
  checked : checkName name = .ok ()
  free : t.entry (name :: dir) ≠ some .directory

variable {t t' : FileTree} {p q : Path} {name : List Char} {dir : Location}
  {content b : ByteArray}

/-- A write that succeeds puts the file at its place and changes nothing else. -/
theorem exists_of_write (h : t.write p content = .ok t') :
    ∃ name dir, t.WritesTo p name dir ∧ t'.entry (name :: dir) = some (.file content) ∧
      ∀ l, l ≠ name :: dir → t'.entry l = t.entry l := by
  unfold write at h
  split at h
  · cases h
  · cases h
  · next name dir hplace =>
    split at h
    · cases h
    · next hplain =>
      split at h
      · cases h
      · next hname =>
        obtain ⟨-, -, hdir, -⟩ := locateNew_eq_ok hplace
        rw [dif_pos hdir] at h
        split at h
        · cases h
        · next hfree =>
          cases h
          refine ⟨name, dir, ⟨hplace, eq_false_of_ne_true hplain, hname, hfree⟩,
            entry_put_self _ _ _ _ _ _, fun l hl => entry_put_of_ne _ _ _ _ _ _ hl⟩

namespace WritesTo

/-- Any content can be written where a file can be written. -/
theorem write (h : t.WritesTo p name dir) (content : ByteArray) :
    ∃ t', t.write p content = .ok t' := by
  obtain ⟨-, -, hdir, -⟩ := locateNew_eq_ok h.place
  unfold FileTree.write
  simp only [h.place, h.plain, h.checked, dif_pos hdir, dif_neg h.free]
  exact ⟨_, rfl⟩

/-- The directories of a tree decide where a file is written. -/
theorem of_directories (h : t.WritesTo p name dir)
    (hdirs : ∀ l, t'.entry l = some .directory ↔ t.entry l = some .directory) :
    t'.WritesTo p name dir where
  place := locateNew_of_directories (fun l => (hdirs l).2) h.place
  plain := h.plain
  checked := h.checked
  free hdir := h.free ((hdirs _).1 hdir)

/-- A path leads to whatever file stands where it would be written. -/
theorem find? (h : t.WritesTo p name dir) (hentry : t.entry (name :: dir) = some (.file b)) :
    t.find? p = some (.file b) := by
  obtain ⟨hcheck, hwalk, hdir, hsteps⟩ := locateNew_eq_ok h.place
  have hlocate : t.locate p = .ok (name :: dir) := by
    refine locate_of_entry hcheck hwalk hdir hsteps h.checked hentry fun hslash => ?_
    rw [h.plain] at hslash
    cases hslash
  rw [FileTree.find?, hlocate]
  exact hentry

end WritesTo

/-- A write changes no directory. -/
theorem directory_iff_of_write (h : t.write p content = .ok t') (l : Location) :
    t'.entry l = some .directory ↔ t.entry l = some .directory := by
  obtain ⟨name, dir, hwrites, hnew, hother⟩ := exists_of_write h
  by_cases hl : l = name :: dir
  · subst hl
    rw [hnew]
    exact ⟨nofun, fun hdir => absurd hdir hwrites.free⟩
  · rw [hother l hl]

/-- A file that was written is found under the same path. -/
theorem find?_of_write (h : t.write p content = .ok t') : t'.find? p = some (.file content) := by
  obtain ⟨name, dir, hwrites, hnew, -⟩ := exists_of_write h
  exact (hwrites.of_directories (directory_iff_of_write h)).find? hnew

/-- A file is found where it would be written. -/
theorem find?_eq_file_iff : t.find? p = some (.file b) ↔
    ∃ name dir, t.WritesTo p name dir ∧ t.entry (name :: dir) = some (.file b) := by
  constructor
  · intro h
    unfold find? at h
    split at h
    · next place hlocate =>
      obtain ⟨u, hcheck, hlocate⟩ := exists_of_bind_eq_ok hlocate
      obtain ⟨place', hwalk, hlocate⟩ := exists_of_bind_eq_ok hlocate
      obtain ⟨rfl, hplain⟩ : place' = place ∧ p.namesDirectory = false := by
        split at hlocate
        · split at hlocate
          · cases hlocate
          · next hplain => cases hlocate; exact ⟨rfl, eq_false_of_ne_true hplain⟩
        · next hother =>
          cases hlocate
          exact absurd h (hother b)
      -- the last step of the walk goes down to the file: all others end at directories
      rcases List.eq_nil_or_concat p.steps with hnil | ⟨before, last, hsteps⟩
      · rw [hnil] at hwalk
        cases hwalk
        rw [t.root_directory] at h
        cases h
      · rw [List.concat_eq_append] at hsteps
        rw [hsteps, walk_append] at hwalk
        obtain ⟨dir, hbefore, hwalk⟩ := exists_of_bind_eq_ok hwalk
        obtain ⟨next, hstep, hwalk⟩ := exists_of_bind_eq_ok hwalk
        cases hwalk
        obtain ⟨hdir, hnext | ⟨name, rfl, rfl, hname⟩⟩ := step_eq_ok hstep
        · rw [hnext] at h
          cases h
        · refine ⟨name, dir, ⟨?_, hplain, hname, ?_⟩, h⟩
          · unfold locateNew
            rw [hcheck, hsteps, List.dropLast_concat, hbefore, List.getLast?_concat]
            simp only [bind, Except.bind, hdir]
            rfl
          · rw [h]
            nofun
    · cases h
  · rintro ⟨name, dir, hwrites, hentry⟩
    exact hwrites.find? hentry

/-! ## Paths That Can Be Written To -/

/-- Something can be written to the path. -/
def Writable (t : FileTree) (p : Path) : Prop := ∃ content t', t.write p content = .ok t'

/-- Then anything can be written to it. -/
theorem Writable.write (h : t.Writable p) (content : ByteArray) :
    ∃ t', t.write p content = .ok t' := by
  obtain ⟨_, _, h⟩ := h
  obtain ⟨name, dir, hwrites, -, -⟩ := exists_of_write h
  exact hwrites.write content

/-! ## Paths of One File -/

/-- Two paths name the same file of a tree, whether the file is there or is still to be
    written. -/
def SameFile (t : FileTree) (p q : Path) : Prop :=
  ∃ name dir, t.WritesTo p name dir ∧ t.WritesTo q name dir

/-- A write to one file leaves every other file as it is, those that are not there included. -/
theorem find?_file_iff_of_write (h : t.write p content = .ok t') (hother : ¬ t.SameFile p q) :
    t'.find? q = some (.file b) ↔ t.find? q = some (.file b) := by
  obtain ⟨name, dir, hwrites, -, hsame⟩ := exists_of_write h
  have hdirs := directory_iff_of_write h
  rw [find?_eq_file_iff, find?_eq_file_iff]
  constructor
  · rintro ⟨name', dir', hq, hentry⟩
    have hq' := hq.of_directories fun l => (hdirs l).symm
    have hne : name' :: dir' ≠ name :: dir := by
      intro heq
      cases heq
      exact hother ⟨name, dir, hwrites, hq'⟩
    exact ⟨name', dir', hq', (hsame _ hne).symm.trans hentry⟩
  · rintro ⟨name', dir', hq, hentry⟩
    have hne : name' :: dir' ≠ name :: dir := by
      intro heq
      cases heq
      exact hother ⟨name, dir, hwrites, hq⟩
    exact ⟨name', dir', hq.of_directories hdirs, (hsame _ hne).trans hentry⟩

end ChipSettings.Files.FileTree
