import ChipSettings.Proofs.Files.Ancestors
import Mathlib.Data.List.Basic

/-! # Plain Paths

  A path that is spelled with names only: no empty segment, no dots. It starts in the working
  directory and goes down.

  - `place_of_isPlain`: where a file is written can be read off a plain path, whatever the tree.
  - `eq_of_sameFile`: so plain paths that name the same file are equal.
-/

namespace ChipSettings.Files

/-- The segment is a name. -/
def isName (segment : List Char) : Bool :=
  segment != [] && segment != ['.'] && segment != ['.', '.']

/-- All segments are names. -/
def Path.isPlain (p : Path) : Bool := p.segments.all isName

theorem stepOf?_of_isName {segment : List Char} (h : isName segment = true) :
    stepOf? segment = some (.down segment) := by
  simp only [isName, Bool.and_eq_true, bne_iff_ne] at h
  obtain ⟨⟨hempty, hdot⟩, hdots⟩ := h
  rw [stepOf?, if_neg hempty, if_neg hdot, if_neg hdots]

/-- A plain path leads down through its segments. -/
theorem Path.steps_of_isPlain {p : Path} (h : p.isPlain = true) :
    p.steps = p.segments.map .down := by
  rw [isPlain, List.all_eq_true] at h
  exact List.filterMap_eq_map_iff_forall_eq_some.2 fun segment hsegment =>
    stepOf?_of_isName (h segment hsegment)

namespace FileTree

variable {t : FileTree} {p q : Path} {name : List Char} {dir place : Location}

/-- A walk down ends at the names it has passed. -/
theorem eq_of_walk_down {names : List (List Char)}
    (h : t.walk place (names.map .down) = .ok dir) : dir = names.reverse ++ place := by
  induction names generalizing place with
  | nil =>
    cases h
    rfl
  | cons name names ih =>
    obtain ⟨next, hstep, hwalk⟩ := exists_of_bind_eq_ok h
    rw [ih hwalk, (step_down_eq_ok_iff.1 hstep).1, List.reverse_cons, List.append_assoc]
    rfl

/-- A file of a plain path stands at its segments. -/
theorem place_of_isPlain (hplain : p.isPlain = true) (h : t.WritesTo p name dir) :
    name :: dir = p.segments.reverse := by
  obtain ⟨-, hwalk, -, hsteps⟩ := locateNew_eq_ok h.place
  rw [Path.steps_of_isPlain hplain] at hwalk hsteps
  rw [← List.map_dropLast] at hwalk hsteps
  -- the last step leads to the name, so the last segment is the name
  have hsegments : p.segments = p.segments.dropLast ++ [name] := by
    have hdown : Function.Injective Step.down := fun _ _ => Step.down.inj
    apply List.map_injective_iff.2 hdown
    rw [List.map_append]
    exact hsteps
  rw [eq_of_walk_down hwalk, List.append_nil, hsegments, List.dropLast_concat,
    List.reverse_concat]

/-- Plain paths that name the same file are equal. -/
theorem eq_of_sameFile (hp : p.isPlain = true) (hq : q.isPlain = true) (h : t.SameFile p q) :
    p = q := by
  obtain ⟨name, dir, hwrites, hwrites'⟩ := h
  -- both paths lead to `name :: dir`, and a path is known by its segments
  have hsegments : p.segments = q.segments :=
    List.reverse_injective
      ((place_of_isPlain hp hwrites).symm.trans (place_of_isPlain hq hwrites'))
  have htext : p.text.toList = q.text.toList := by
    rw [← joinSlashes_splitSlashes p.text.toList, ← joinSlashes_splitSlashes q.text.toList]
    exact congrArg joinSlashes hsegments
  cases p
  cases q
  exact congrArg Path.mk (String.toList_injective htext)

end FileTree

end ChipSettings.Files
