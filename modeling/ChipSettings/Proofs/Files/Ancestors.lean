import ChipSettings.Proofs.Files.Growth
import ChipSettings.Proofs.Files.Writing

/-! # The Directories above a Path

  A path spells the directories above it as its own beginnings, so that a walk along the path
  passes through each of them.

  - `splitSlashes_joinSlashes` and `joinSlashes_splitSlashes`: paths are lists of segments
    without slashes.
  - `exists_of_mem_ancestors`: the walk along a path starts with the walk to any directory
    above it.
  - `isDirectory_of_mem_ancestors`: where a file is found, all directories above it are there.
  - `exists_of_makeDirectories_error`: making directories fails only if one of them is not
    there in the end.
-/

namespace ChipSettings.Files

/-! ## Segments -/

theorem splitSlashes_eq_splitOn (cs : List Char) : splitSlashes cs = cs.splitOn '/' := by
  induction cs with
  | nil => rfl
  | cons c cs ih =>
    rw [List.splitOn, List.splitOnP_cons_eq_if_modifyHead, splitSlashes, ih, ← List.splitOn]
    split
    · rfl
    · obtain ⟨segment, segments, hsegments⟩ :=
        List.exists_cons_of_ne_nil (List.splitOnP_ne_nil (· == '/') cs)
      rw [List.splitOn, hsegments]
      rfl

theorem joinSlashes_eq_intercalate (segments : List (List Char)) :
    joinSlashes segments = ['/'].intercalate segments := by
  induction segments with
  | nil => rfl
  | cons segment segments ih =>
    cases segments with
    | nil => simp [joinSlashes]
    | cons segment' segments =>
      rw [List.intercalate_cons_cons, ← ih, List.append_assoc]
      rfl

/-- A text is its segments with slashes between. -/
@[simp] theorem joinSlashes_splitSlashes (cs : List Char) : joinSlashes (splitSlashes cs) = cs := by
  rw [joinSlashes_eq_intercalate, splitSlashes_eq_splitOn, List.intercalate_splitOn]

theorem splitSlashes_ne_nil (cs : List Char) : splitSlashes cs ≠ [] := by
  rw [splitSlashes_eq_splitOn]
  exact List.splitOnP_ne_nil _ _

/-- Segments without slashes are found again. -/
theorem splitSlashes_joinSlashes {segments : List (List Char)} (hne : segments ≠ [])
    (h : ∀ segment ∈ segments, '/' ∉ segment) : splitSlashes (joinSlashes segments) = segments := by
  rw [joinSlashes_eq_intercalate, splitSlashes_eq_splitOn, List.splitOn_intercalate _ h hne]

/-- No segment holds a slash. -/
theorem slash_not_mem_of_mem_splitSlashes {cs segment : List Char}
    (h : segment ∈ splitSlashes cs) : '/' ∉ segment := by
  induction cs generalizing segment with
  | nil =>
    rw [List.mem_singleton.1 h]
    exact List.not_mem_nil
  | cons c cs ih =>
    unfold splitSlashes at h
    split at h
    · rcases List.mem_cons.1 h with rfl | h
      · exact List.not_mem_nil
      · exact ih h
    · next hc =>
      have hc' : '/' ≠ c := fun heq => hc (by rw [heq]; exact beq_self_eq_true c)
      split at h
      · rw [List.mem_singleton.1 h]
        exact fun hslash => hc' (List.mem_singleton.1 hslash)
      · next head segments hcs =>
        rw [hcs] at ih
        rcases List.mem_cons.1 h with rfl | h
        · intro hslash
          rcases List.mem_cons.1 hslash with heq | hslash
          · exact hc' heq
          · exact ih List.mem_cons_self hslash
        · exact ih (List.mem_cons_of_mem _ h)

/-- The text of some segments starts with the text of the first ones. -/
theorem joinSlashes_append {above more : List (List Char)} (habove : above ≠ [])
    (hmore : more ≠ []) :
    joinSlashes (above ++ more) = joinSlashes above ++ '/' :: joinSlashes more := by
  induction above with
  | nil => exact absurd rfl habove
  | cons segment above ih =>
    cases above with
    | nil =>
      obtain ⟨segment', more, rfl⟩ := List.exists_cons_of_ne_nil hmore
      rfl
    | cons segment' above =>
      show segment ++ '/' :: joinSlashes ((segment' :: above) ++ more) = _
      rw [ih (List.cons_ne_nil _ _)]
      simp [joinSlashes]

theorem joinSlashes_prefix {above : List (List Char)} (habove : above ≠ [])
    (more : List (List Char)) : joinSlashes above <+: joinSlashes (above ++ more) := by
  by_cases hmore : more = []
  · simp [hmore]
  · rw [joinSlashes_append habove hmore]
    exact List.prefix_append _ _

/-- A text ends like its last segment. -/
theorem getLast?_joinSlashes (above : List (List Char)) {segment : List Char}
    (h : segment ≠ []) : (joinSlashes (above ++ [segment])).getLast? = segment.getLast? := by
  by_cases habove : above = []
  · rw [habove]
    rfl
  · rw [joinSlashes_append habove (List.cons_ne_nil _ _), List.getLast?_append]
    simp [joinSlashes, List.getLast?_cons, List.getLast?_eq_some_getLast h]

/-! ## The Walk to a Directory Above -/

/-- A segment that is no filler stands for a step. -/
theorem exists_stepOf?_of_isFiller {segment : List Char} (h : isFiller segment = false) :
    ∃ s, stepOf? segment = some s := by
  have hne : segment ≠ [] := by
    rintro rfl
    cases h
  unfold stepOf?
  rw [if_neg hne]
  split
  · exact ⟨_, rfl⟩
  · split
    · exact ⟨_, rfl⟩
    · exact ⟨_, rfl⟩

/-- A directory above is spelled by the first segments; a segment that is no filler follows. -/
theorem exists_of_mem_ancestorsFrom {first : List Char} {reversed : List (List Char)} {dir : Path}
    (h : dir ∈ ancestorsFrom first reversed) :
    ∃ above more, reversed.reverse = above ++ more ∧
      (∃ segment ∈ more, isFiller segment = false) ∧
      dir.text.toList =
        if above = [] ∧ first = [] then ['/'] else joinSlashes (first :: above) := by
  induction reversed with
  | nil => cases h
  | cons segment before ih =>
    have hlater (hbefore : dir ∈ ancestorsFrom first before) :
        ∃ above more, (segment :: before).reverse = above ++ more ∧
          (∃ segment ∈ more, isFiller segment = false) ∧ dir.text.toList =
            if above = [] ∧ first = [] then ['/'] else joinSlashes (first :: above) := by
      obtain ⟨above, more, hreverse, ⟨found, hfound, hplain⟩, htext⟩ := ih hbefore
      refine ⟨above, more ++ [segment], ?_, ⟨found, List.mem_append_left _ hfound, hplain⟩, htext⟩
      rw [List.reverse_cons, hreverse, List.append_assoc]
    unfold ancestorsFrom at h
    split at h
    · exact hlater h
    · next hplain =>
      rcases List.mem_cons.1 h with rfl | hbefore
      · -- the nearest directory: fillers before the last segment are left out
        refine ⟨(before.dropWhile isFiller).reverse,
          (before.takeWhile isFiller).reverse ++ [segment], ?_,
          ⟨segment, by simp, eq_false_of_ne_true hplain⟩, ?_⟩
        · rw [← List.append_assoc, ← List.reverse_append, List.takeWhile_append_dropWhile,
            List.reverse_cons]
        · rw [String.toList_ofList]
          cases before.dropWhile isFiller with
          | nil => simp [joinSlashes]
          | cons kept keeps => simp
      · exact hlater hbefore

namespace Path

variable {p dir : Path}

/-- A directory above a path is spelled as a beginning of it, and the walk along the path starts
    with the walk to the directory. -/
theorem exists_of_mem_ancestors (h : dir ∈ p.ancestors) :
    dir.text.toList <+: p.text.toList ∧ dir.text ≠ "" ∧
      ∃ more, more ≠ [] ∧ p.steps = dir.steps ++ more := by
  unfold ancestors at h
  split at h
  · cases h
  · next first later hsegments =>
    obtain ⟨above, more, hlater, ⟨segment, hsegment, hplain⟩, htext⟩ :=
      exists_of_mem_ancestorsFrom h
    rw [List.reverse_reverse] at hlater
    rw [hlater] at hsegments
    have hmore : more ≠ [] := List.ne_nil_of_mem hsegment
    obtain ⟨s, hs⟩ := exists_stepOf?_of_isFiller hplain
    have hsteps : more.filterMap stepOf? ≠ [] :=
      List.ne_nil_of_mem (List.mem_filterMap.2 ⟨segment, hsegment, hs⟩)
    have hpath : p.text.toList = joinSlashes (first :: above) ++ '/' :: joinSlashes more := by
      rw [← joinSlashes_append (List.cons_ne_nil _ _) hmore, List.cons_append, ← hsegments]
      exact (joinSlashes_splitSlashes _).symm
    have hall : p.steps =
        (first :: above).filterMap stepOf? ++ more.filterMap stepOf? := by
      rw [steps, hsegments, ← List.cons_append, List.filterMap_append]
    split at htext
    · next hroot =>
      -- the path starts at the root
      obtain ⟨rfl, rfl⟩ := hroot
      have hdir : dir.steps = [] := by
        rw [steps, segments, htext]
        rfl
      refine ⟨?_, ?_, _, hsteps, ?_⟩
      · rw [htext, hpath]
        exact List.prefix_append ['/'] _
      · intro hempty
        rw [hempty] at htext
        cases htext
      · rw [hall, hdir]
        rfl
    · next hfirst =>
      have hslash : ∀ segment ∈ first :: above, '/' ∉ segment := by
        intro segment hmem
        apply slash_not_mem_of_mem_splitSlashes
        rw [show splitSlashes p.text.toList = first :: (above ++ more) from hsegments,
          ← List.cons_append]
        exact List.mem_append_left _ hmem
      have hdir : dir.steps = (first :: above).filterMap stepOf? := by
        rw [steps, segments, htext, splitSlashes_joinSlashes (List.cons_ne_nil _ _) hslash]
      refine ⟨?_, ?_, _, hsteps, ?_⟩
      · rw [htext, hpath]
        exact List.prefix_append _ _
      · intro hempty
        rw [hempty] at htext
        refine hfirst ?_
        cases above with
        | nil => exact ⟨rfl, htext.symm⟩
        | cons segment above => simp [joinSlashes] at htext
      · rw [hall, hdir]

end Path

/-! ## Directories Above a File -/

namespace FileTree

open Text

variable {t : FileTree} {p dir : Path} {b : ByteArray}

/-- The system does not refuse a beginning of a path that it does not refuse. -/
theorem checkPath_of_beginning (h : checkPath p = .ok ())
    (hbegins : dir.text.toList <+: p.text.toList) (hne : dir.text ≠ "") : checkPath dir = .ok () := by
  unfold checkPath at h ⊢
  split at h
  · cases h
  · next hnull =>
    split at h
    · cases h
    · split at h
      · cases h
      · next hlimit =>
        obtain ⟨more, hmore⟩ := hbegins
        rw [← hmore] at hnull hlimit
        rw [if_neg fun hmem => hnull (List.mem_append_left _ hmem), if_neg hne, if_neg]
        simp only [byteLength_append] at hlimit ⊢
        omega

/-- Where a file is found, all directories above it are there. -/
theorem isDirectory_of_mem_ancestors (hfile : t.find? p = some (.file b))
    (hdir : dir ∈ p.ancestors) : t.isDirectory dir = true := by
  obtain ⟨hbegins, hne, more, hmore, hsteps⟩ := Path.exists_of_mem_ancestors hdir
  unfold find? at hfile
  split at hfile
  · next place hlocate =>
    obtain ⟨u, hcheck, hlocate⟩ := exists_of_bind_eq_ok hlocate
    obtain ⟨place', hwalk, -⟩ := exists_of_bind_eq_ok hlocate
    -- the walk to the file goes on behind the directory, so that it is one
    rw [hsteps, walk_append] at hwalk
    obtain ⟨above, habove, hwalk⟩ := exists_of_bind_eq_ok hwalk
    obtain ⟨s, more, rfl⟩ := List.exists_cons_of_ne_nil hmore
    obtain ⟨next, hstep, -⟩ := exists_of_bind_eq_ok hwalk
    have hentry := (step_eq_ok hstep).1
    unfold isDirectory find? locate
    simp only [checkPath_of_beginning hcheck hbegins hne, habove, hentry, bind, Except.bind, pure,
      Except.pure]
  · cases hfile

/-! ## Making Directories -/

/-- Where making directories fails, one of them is not there in the end. -/
theorem exists_of_makeDirectories_error {t' : FileTree} {dirs : List Path} {e : IoError}
    (h : t.makeDirectories dirs = (.error e, t')) : ∃ dir ∈ dirs, t'.isDirectory dir = false := by
  induction dirs generalizing t with
  | nil => cases h
  | cons p above ih =>
    have hother {t : FileTree} {cause : IoError}
        (h : (if t.isDirectory p then (Except.ok (), t) else (Except.error cause, t)) =
          (.error e, t')) : ∃ dir ∈ p :: above, t'.isDirectory dir = false := by
      split at h
      · cases h
      · next hp => cases h; exact ⟨p, List.mem_cons_self, eq_false_of_ne_true hp⟩
    unfold makeDirectories at h
    simp only at h
    split at h
    · cases h
    · split at h
      · next habove =>
        cases h
        obtain ⟨dir, hdir, hmissing⟩ := ih habove
        exact ⟨dir, List.mem_cons_of_mem p hdir, hmissing⟩
      · split at h
        · cases h
        · exact hother h
    · exact hother h

end FileTree

end ChipSettings.Files
