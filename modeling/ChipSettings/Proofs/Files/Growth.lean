import ChipSettings.Proofs.Files.Walking

/-! # Trees That Grow

  Making directories adds directories to a tree and changes nothing else.

  - `Grown t t'`: all that is new in `t'` are directories. A path leads where it led before
    (`Grown.locate`), and the files are the same (`Grown.file_iff`).
  - `GrownBy dirs t t'`: and each of them is the place that one of the paths leads to.
  - `exists_of_makeDirectory`: what making one directory does to the tree.
  - `grownBy_makeDirectories`: whether making directories succeeds or fails, the tree has
    only grown, by some of these directories.
-/

namespace ChipSettings.Files.FileTree

/-- Nothing of the first tree is lost or changed in the second, and all that is new are
    directories. -/
def Grown (t t' : FileTree) : Prop :=
  ∀ l, t'.entry l = t.entry l ∨ (t.entry l = none ∧ t'.entry l = some .directory)

/-- The tree has grown, and whatever is new is where one of the given paths leads. -/
structure GrownBy (dirs : List Path) (t t' : FileTree) : Prop where
  grown : Grown t t'
  place : ∀ l, t'.entry l ≠ t.entry l → ∃ dir ∈ dirs, t'.locate dir = .ok l

namespace Grown

variable {t t' t'' : FileTree}

theorem refl (t : FileTree) : Grown t t := fun _ => .inl rfl

theorem trans (h : Grown t t') (h' : Grown t' t'') : Grown t t'' := by
  intro l
  rcases h l with hsame | ⟨hnone, hnew⟩
  · rw [← hsame]
    exact h' l
  · rcases h' l with hsame | ⟨hnone', -⟩
    · exact .inr ⟨hnone, by rw [hsame, hnew]⟩
    · rw [hnew] at hnone'
      cases hnone'

/-- What was there is there. -/
theorem entry_of_some (h : Grown t t') {l : Location} {e : Entry} (he : t.entry l = some e) :
    t'.entry l = some e := by
  rcases h l with hsame | ⟨hnone, -⟩
  · rw [hsame, he]
  · rw [hnone] at he
    cases he

/-- The files are the same, and so are their contents. -/
theorem file_iff (h : Grown t t') (l : Location) (content : ByteArray) :
    t'.entry l = some (.file content) ↔ t.entry l = some (.file content) := by
  rcases h l with hsame | ⟨hnone, hnew⟩
  · rw [hsame]
  · rw [hnone, hnew]
    simp

/-! ## Walks in a Grown Tree -/

theorem keeps (h : Grown t t') : Keeps t t' where
  directory _ hl := h.entry_of_some hl
  there l hl := by
    obtain ⟨e, he⟩ := Option.ne_none_iff_exists'.1 hl
    rw [h.entry_of_some he]
    exact Option.some_ne_none e

/-- In a tree that has grown, a path leads where it led before. -/
theorem locate (h : Grown t t') {p : Path} {l : Location} (hp : t.locate p = .ok l) :
    t'.locate p = .ok l := by
  obtain ⟨u, hcheck, hp⟩ := exists_of_bind_eq_ok hp
  obtain ⟨place, hw, hp⟩ := exists_of_bind_eq_ok hp
  unfold FileTree.locate
  rw [hcheck, h.keeps.walk hw]
  simp only [bind, Except.bind]
  rcases h place with hsame | ⟨hnone, hnew⟩
  · rw [hsame]
    exact hp
  · rw [hnone] at hp
    rw [hnew]
    exact hp

/-- A file that was found is found. -/
theorem find?_file (h : Grown t t') {p : Path} {content : ByteArray}
    (hp : t.find? p = some (.file content)) : t'.find? p = some (.file content) := by
  unfold find? at hp
  split at hp
  · next place hplace =>
    rw [find?, h.locate hplace]
    exact h.entry_of_some hp
  · cases hp

end Grown

namespace GrownBy

variable {dirs : List Path} {t t' t'' : FileTree}

theorem refl (dirs : List Path) (t : FileTree) : GrownBy dirs t t where
  grown := .refl t
  place _ h := absurd rfl h

/-- More paths lead to what is new as well. -/
theorem mono {dirs' : List Path} (h : GrownBy dirs t t') (hsub : ∀ dir ∈ dirs, dir ∈ dirs') :
    GrownBy dirs' t t' where
  grown := h.grown
  place l hl := by
    obtain ⟨dir, hdir, hplace⟩ := h.place l hl
    exact ⟨dir, hsub dir hdir, hplace⟩

theorem trans (h : GrownBy dirs t t') (h' : GrownBy dirs t' t'') : GrownBy dirs t t'' where
  grown := h.grown.trans h'.grown
  place l hl := by
    by_cases hl' : t''.entry l = t'.entry l
    · -- new since the first tree: the path still leads there
      obtain ⟨dir, hdir, hplace⟩ := h.place l (by rwa [← hl'])
      exact ⟨dir, hdir, h'.grown.locate hplace⟩
    · exact h'.place l hl'

end GrownBy

/-! ## Making Directories -/

variable {t t' : FileTree} {p : Path}

/-- Making a directory that succeeds puts it at its place and changes nothing else. -/
theorem exists_of_makeDirectory (h : t.makeDirectory p = .ok t') :
    ∃ name dir, t.locateNew p = .ok (some name, dir) ∧ checkName name = .ok () ∧
      t.entry (name :: dir) = none ∧ t'.entry (name :: dir) = some .directory ∧
      ∀ l, l ≠ name :: dir → t'.entry l = t.entry l := by
  unfold makeDirectory at h
  split at h
  · cases h
  · cases h
  · next name dir hplace =>
    split at h
    · cases h
    · next hname =>
      obtain ⟨-, -, hdir, -⟩ := locateNew_eq_ok hplace
      rw [dif_pos hdir] at h
      split at h
      · cases h
      · next hnone =>
        cases h
        exact ⟨name, dir, hplace, hname, hnone, entry_put_self _ _ _ _ _ _,
          fun l hl => entry_put_of_ne _ _ _ _ _ _ hl⟩

/-- Making a directory adds that directory. -/
theorem grownBy_makeDirectory (h : t.makeDirectory p = .ok t') : GrownBy [p] t t' := by
  obtain ⟨name, dir, hplace, hname, hnone, hnew, hsame⟩ := exists_of_makeDirectory h
  obtain ⟨hcheck, hwalk, hdir, hsteps⟩ := locateNew_eq_ok hplace
  have hgrown : Grown t t' := by
    intro l
    by_cases hl : l = name :: dir
    · rw [hl]
      exact .inr ⟨hnone, hnew⟩
    · exact .inl (hsame l hl)
  refine ⟨hgrown, fun l hl => ⟨p, List.mem_singleton_self p, ?_⟩⟩
  obtain rfl : l = name :: dir := Classical.byContradiction fun hne => hl (hsame l hne)
  exact locate_of_entry hcheck (hgrown.keeps.walk hwalk) (hgrown.entry_of_some hdir) hsteps hname
    hnew fun _ => rfl

/-- A directory that was made is one. -/
theorem isDirectory_of_makeDirectory (h : t.makeDirectory p = .ok t') :
    t'.isDirectory p = true := by
  obtain ⟨name, dir, -, -, hnone, hnew, -⟩ := exists_of_makeDirectory h
  have hchanged : t'.entry (name :: dir) ≠ t.entry (name :: dir) := by
    rw [hnew, hnone]
    nofun
  obtain ⟨q, hq, hlocate⟩ := (grownBy_makeDirectory h).place _ hchanged
  rw [List.mem_singleton.1 hq] at hlocate
  simp only [isDirectory, find?, hlocate, hnew]

/-- Making directories adds some of them, even if it fails. -/
theorem grownBy_makeDirectories (t : FileTree) (dirs : List Path) :
    GrownBy dirs t (t.makeDirectories dirs).2 := by
  induction dirs generalizing t with
  | nil => exact .refl [] t
  | cons p above ih =>
    have head {t t' : FileTree} (h : t.makeDirectory p = .ok t') : GrownBy (p :: above) t t' :=
      (grownBy_makeDirectory h).mono fun dir hdir => by
        rw [List.mem_singleton.1 hdir]
        exact List.mem_cons_self
    have hother {t : FileTree} {e : IoError} :
        (if t.isDirectory p then (Except.ok (), t) else (Except.error e, t)).2 = t := by
      split
      · rfl
      · rfl
    unfold makeDirectories
    simp only
    split
    · next hmade => exact head hmade
    · have habove : GrownBy (p :: above) t (t.makeDirectories above).2 :=
        (ih t).mono fun dir => List.mem_cons_of_mem p
      generalize t.makeDirectories above = r at habove
      obtain ⟨result, t'⟩ := r
      cases result with
      | error e => exact habove
      | ok u =>
        simp only
        split
        · next hmade => exact habove.trans (head hmade)
        · rw [hother]
          exact habove
    · rw [hother]
      exact .refl _ t

/-- Where making directories succeeds, the first one is there. -/
theorem isDirectory_of_makeDirectories {above : List Path}
    (h : t.makeDirectories (p :: above) = (.ok (), t')) : t'.isDirectory p = true := by
  have hthere {t : FileTree} {e : IoError}
      (h : (if t.isDirectory p then (Except.ok (), t) else (Except.error e, t)) = (.ok (), t')) :
      t'.isDirectory p = true := by
    split at h
    · next hp => cases h; exact hp
    · cases h
  unfold makeDirectories at h
  simp only at h
  split at h
  · next hmade => cases h; exact isDirectory_of_makeDirectory hmade
  · split at h
    · cases h
    · split at h
      · next hmade => cases h; exact isDirectory_of_makeDirectory hmade
      · exact hthere h
  · exact hthere h

/-- So does making the directory of a path. -/
theorem grown_makePath (t : FileTree) (p : Path) : Grown t (t.makePath p).2 := by
  unfold makePath
  split
  · exact .refl t
  · exact (grownBy_makeDirectories t (p :: p.ancestors)).grown

end ChipSettings.Files.FileTree
