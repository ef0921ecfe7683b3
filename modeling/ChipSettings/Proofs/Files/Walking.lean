import ChipSettings.Files.Tree
import ChipSettings.Proofs.Outcome

/-! # Walking a Changed Tree

  A walk looks at a tree only to see what is a directory and what is there at all. It leads
  where it led before in every tree in which these two facts are kept.

  - `step_eq_ok`: a step leads from a directory to a directory, or down to an entry.
  - `Keeps t t'`: what was there is there, and directories have stayed directories.
    `Keeps.walk`: walks are the same then.
  - `locateNew_eq_ok`: a path for a new entry is a walk to a directory and a name.
  - `locate_of_entry`: once an entry of that name stands there, the path leads to it.
-/

namespace ChipSettings.Files.FileTree

open Text

/-! ## Single Steps -/

/-- A name is refused for its length only. -/
theorem checkName_eq_ok_iff {name : List Char} :
    checkName name = .ok () ↔ byteLength name ≤ nameLimit := by
  unfold checkName
  by_cases h : nameLimit < byteLength name
  · rw [if_pos h]
    exact iff_of_false nofun (Nat.not_le.2 h)
  · rw [if_neg h]
    exact iff_of_true rfl (Nat.not_lt.1 h)

/-- A step down leads from a directory to an entry that is there. -/
theorem step_down_eq_ok_iff {t : FileTree} {place next : Location} {name : List Char} :
    t.step place (.down name) = .ok next ↔ next = name :: place ∧
      t.entry place = some .directory ∧ byteLength name ≤ nameLimit ∧
        t.entry (name :: place) ≠ none := by
  rw [← checkName_eq_ok_iff]
  constructor
  · intro h
    unfold step at h
    split at h
    · next hplace =>
      obtain ⟨u, hname, h⟩ := exists_of_bind_eq_ok h
      split at h
      · next hentry => cases h; exact ⟨rfl, hplace, hname, by rw [hentry]; nofun⟩
      · cases h
    · cases h
  · rintro ⟨rfl, hplace, hname, hthere⟩
    obtain ⟨e, hentry⟩ := Option.ne_none_iff_exists'.1 hthere
    simp only [step, hplace, hname, hentry, bind, Except.bind, pure, Except.pure]

/-- Any other step looks at the place where it starts and at nothing else. -/
theorem step_congr {t t' : FileTree} {place : Location} {s : Step} (hs : ∀ name, s ≠ .down name)
    (hplace : t.entry place = t'.entry place) : t.step place s = t'.step place s := by
  unfold step
  rw [hplace]
  cases s with
  | down name => exact absurd rfl (hs name)
  | stay => rfl
  | up => rfl

/-- What one step of a walk leads to is a directory, or an entry of that name. -/
theorem step_eq_ok {t : FileTree} {place next : Location} {s : Step}
    (h : t.step place s = .ok next) :
    t.entry place = some .directory ∧ (t.entry next = some .directory ∨
      ∃ name, s = .down name ∧ next = name :: place ∧ checkName name = .ok ()) := by
  cases s with
  | down name =>
    obtain ⟨rfl, hplace, hname, -⟩ := step_down_eq_ok_iff.1 h
    exact ⟨hplace, .inr ⟨name, rfl, rfl, checkName_eq_ok_iff.2 hname⟩⟩
  | stay =>
    unfold step at h
    split at h
    · next hplace => cases h; exact ⟨hplace, .inl hplace⟩
    · cases h
  | up =>
    unfold step at h
    split at h
    · next hplace =>
      cases h
      refine ⟨hplace, .inl ?_⟩
      cases place with
      | nil => exact t.root_directory
      | cons name dir =>
        exact t.parent_directory name dir (by rw [hplace]; exact Option.some_ne_none _)
    · cases h

/-! ## Walks in Two Trees -/

/-- What is there in the first tree is there in the second, and its directories are
    directories. -/
structure Keeps (t t' : FileTree) : Prop where
  directory : ∀ l, t.entry l = some .directory → t'.entry l = some .directory
  there : ∀ l, t.entry l ≠ none → t'.entry l ≠ none

namespace Keeps

variable {t t' : FileTree}

theorem step (h : Keeps t t') {place place' : Location} {s : Step}
    (hs : t.step place s = .ok place') : t'.step place s = .ok place' := by
  have hplace := (step_eq_ok hs).1
  have hplace' := h.directory place hplace
  cases s with
  | down name =>
    obtain ⟨hnext, -, hname, hthere⟩ := step_down_eq_ok_iff.1 hs
    exact step_down_eq_ok_iff.2 ⟨hnext, hplace', hname, h.there _ hthere⟩
  | stay => rwa [← step_congr (s := .stay) nofun (hplace.trans hplace'.symm)]
  | up => rwa [← step_congr (s := .up) nofun (hplace.trans hplace'.symm)]

theorem walk (h : Keeps t t') {place place' : Location} {steps : List Step}
    (hw : t.walk place steps = .ok place') : t'.walk place steps = .ok place' := by
  induction steps generalizing place with
  | nil => exact hw
  | cons s steps ih =>
    obtain ⟨next, hs, hw⟩ := exists_of_bind_eq_ok hw
    rw [FileTree.walk, h.step hs]
    exact ih hw

end Keeps

/-! ## Places for New Entries -/

variable {t : FileTree} {p : Path} {name : List Char} {dir : Location}

/-- A walk takes its steps one part after the other. -/
theorem walk_append (t : FileTree) (place : Location) (as bs : List Step) :
    t.walk place (as ++ bs) = (t.walk place as).bind fun next => t.walk next bs := by
  induction as generalizing place with
  | nil => rfl
  | cons s as ih =>
    rw [List.cons_append, walk, walk]
    simp only [bind]
    cases t.step place s with
    | error e => rfl
    | ok next => exact ih next

/-- A path for a new entry leads to a directory first, and then on to the name. -/
theorem locateNew_eq_ok (h : t.locateNew p = .ok (some name, dir)) :
    checkPath p = .ok () ∧ t.walk [] p.steps.dropLast = .ok dir ∧
      t.entry dir = some .directory ∧ p.steps = p.steps.dropLast ++ [.down name] := by
  obtain ⟨u, hcheck, h⟩ := exists_of_bind_eq_ok h
  obtain ⟨place, hw, h⟩ := exists_of_bind_eq_ok h
  split at h
  · next hentry =>
    split at h
    · next last hlast =>
      cases h
      refine ⟨hcheck, hw, hentry, ?_⟩
      obtain ⟨before, hsteps⟩ := List.getLast?_eq_some_iff.1 hlast
      rw [hsteps, List.dropLast_concat]
    · cases h
  · cases h

/-- Where an entry of the name stands in the directory, the path leads to it; if it is a
    file, the path must not end in a slash. -/
theorem locate_of_entry {e : Entry} (hcheck : checkPath p = .ok ())
    (hwalk : t.walk [] p.steps.dropLast = .ok dir) (hdir : t.entry dir = some .directory)
    (hsteps : p.steps = p.steps.dropLast ++ [.down name]) (hname : checkName name = .ok ())
    (hentry : t.entry (name :: dir) = some e)
    (hslash : p.namesDirectory = true → e = .directory) : t.locate p = .ok (name :: dir) := by
  -- the walk to the directory, and one step down
  have hstep : t.step dir (.down name) = .ok (name :: dir) :=
    step_down_eq_ok_iff.2 ⟨rfl, hdir, checkName_eq_ok_iff.1 hname, by rw [hentry]; nofun⟩
  have hall : t.walk [] p.steps = .ok (name :: dir) := by
    rw [hsteps, walk_append, hwalk]
    show t.walk dir [.down name] = _
    rw [walk, hstep]
    rfl
  unfold locate
  rw [hcheck, hall]
  simp only [bind, Except.bind, hentry]
  cases e with
  | directory => rfl
  | file content =>
    have hplain : p.namesDirectory ≠ true := fun h => nomatch hslash h
    simp only [if_neg hplain, pure, Except.pure]

end ChipSettings.Files.FileTree
