import ChipSettings.Proofs.Form.Commit
import ChipSettings.Proofs.Store.Files
import ChipSettings.Session

/-! # Failed Commits

  A commit that fails leaves everything as it is, but for directories on the way to the
  fixed file.

  - `persistCurrent_error`: where writing the fixed file can fail, and what is left then.
  - `failed_commit`: what a session is like after an accept or an export that failed.

  Invalid fields are found before anything is done, so that an error which names them leaves the
  tree as it is. This is not so for a codec that answers with such an error of its own: by then
  the directory of the fixed file has been made.
-/

namespace ChipSettings

open Files FileTree

namespace Store

variable {store : Store} {t t' : FileTree} {p : Profile} {error : SettingsError}

/-- If the fixed file cannot be written, the tree has grown by directories above it. -/
theorem persistCurrent_error (h : store.persistCurrent t p = (.error error, t')) :
    GrownBy store.currentPath.ancestors t t' ∧
      (store.codec.serialize p = .error error ∨ ∃ path cause, error = .io path cause) := by
  have hgrown := grownBy_prepareDirectory store t
  rcases persistCurrent_eq_error h with hprepare | ⟨hprepare, hexport⟩
  · rw [hprepare] at hgrown
    obtain ⟨dir, above, cause, -, -, -, rfl⟩ := prepareDirectory_eq_error hprepare
    exact ⟨hgrown, .inr ⟨dir, cause, rfl⟩⟩
  · rw [hprepare] at hgrown
    exact ⟨hgrown, (exportTo_eq_error hexport).imp_right (Exists.intro store.currentPath)⟩

end Store

/-! ## Sessions after a Failed Commit -/

namespace Session

variable {store : Store} {s s' : Session} {error : SettingsError}

/-- An accept that fails may have changed the files, and nothing else. -/
theorem accept_failed (h : s.perform store .accept = (.failed error, s')) :
    ∃ files, s.editor.accept store s.current s.files = (.error error, files) ∧
      s' = { s with files } := by
  unfold perform at h
  simp only at h
  split at h
  · cases h
  · next files haccept => cases h; exact ⟨files, haccept, rfl⟩

/-- An export that fails has changed nothing. -/
theorem exportForm_failed {path : Path}
    (h : s.perform store (.exportForm path) = (.failed error, s')) :
    s.editor.exportTo store s.files path = .error error ∧ s' = s := by
  unfold perform at h
  simp only at h
  split at h
  · cases h
  · next hexport => cases h; exact ⟨hexport, rfl⟩

end Session

/-- **Failed commits are atomic**: after an accept or an export that failed, the form and the
    current profile are as before, and so is every file. A commit that is refused at the
    gate leaves the whole tree as it is, and so does every export; writing the fixed file
    may leave new directories where the paths above it lead, and nothing else. An error that
    names invalid fields is the gate's, unless the codec itself answers with one. -/
theorem failed_commit (store : Store) (s s' : Session) (operation : Operation)
    (error : SettingsError)
    (hoperation : operation = .accept ∨ ∃ path, operation = .exportForm path)
    (hfail : s.perform store operation = (.failed error, s')) :
    s'.editor = s.editor ∧ s'.current = s.current ∧
      (∀ l content, s'.files.entry l = some (.file content) ↔
        s.files.entry l = some (.file content)) ∧
      (s.editor.invalidFields ≠ [] →
        error = .invalidFields s.editor.invalidFields ∧ s'.files = s.files) ∧
      (∀ fields, error = .invalidFields fields →
        s'.files = s.files ∨
          store.codec.serialize (s.editor.commitInto s.current) = .error error) ∧
      (∀ path, operation = .exportForm path → s'.files = s.files) ∧
      ∀ l, s'.files.entry l ≠ s.files.entry l →
        s.files.entry l = none ∧ s'.files.entry l = some .directory ∧
          ∃ dir ∈ store.currentPath.ancestors, s'.files.locate dir = .ok l := by
  rcases hoperation with rfl | ⟨path, rfl⟩
  · -- an accept
    obtain ⟨files, haccept, rfl⟩ := Session.accept_failed hfail
    rcases Editor.accept_error haccept with ⟨hinvalid, rfl, rfl⟩ | ⟨hvalid, hpersist⟩
    · exact ⟨rfl, rfl, fun _ _ => Iff.rfl, fun _ => ⟨rfl, rfl⟩, fun _ _ => .inl rfl,
        fun _ _ => rfl, fun _ hl => absurd rfl hl⟩
    · obtain ⟨hgrown, hreason⟩ := Store.persistCurrent_error hpersist
      refine ⟨rfl, rfl, hgrown.grown.file_iff, fun hinvalid => absurd hvalid hinvalid, ?_,
        fun path hpath => (by cases hpath), fun l hl => ?_⟩
      · rintro fields rfl
        rcases hreason with hserialize | ⟨path, cause, hio⟩
        · exact .inr hserialize
        · cases hio
      · rcases hgrown.grown l with hsame | ⟨hnone, hnew⟩
        · exact absurd hsame hl
        · exact ⟨hnone, hnew, hgrown.place l hl⟩
  · -- an export
    obtain ⟨hexport, rfl⟩ := Session.exportForm_failed hfail
    refine ⟨rfl, rfl, fun _ _ => Iff.rfl, fun hinvalid => ⟨?_, rfl⟩, fun _ _ => .inl rfl,
      fun _ _ => rfl, fun _ hl => absurd rfl hl⟩
    rcases Editor.exportTo_error hexport with ⟨-, rfl⟩ | ⟨hvalid, -⟩
    · rfl
    · exact absurd hvalid hinvalid

/-- A store that cannot write. The way to its fixed file goes through a directory that does not
    hold it. -/
def refusingStore : Store := ⟨⟨"a/../b/f"⟩, .refusing "no" "xml"⟩

/-- An accept that fails where the directory of the fixed file is there, but not every directory
    on the way: the one that was missing is left. -/
theorem failed_commit_refused :
    let s := ((Session.start .default).perform refusingStore (.files (.makePath ⟨"b"⟩))).2
    let (answer, s') := s.perform refusingStore .accept
    answer = .failed (.serialization "no") ∧ s'.current = .default ∧
      s.files.entry [['b']] = some .directory ∧ s.files.entry [['a']] = none ∧
      ∃ dir ∈ refusingStore.currentPath.ancestors, s'.files.locate dir = .ok [['a']] := by
  intro s
  have hanswer : (s.perform refusingStore .accept).1 = .failed (.serialization "no") := rfl
  obtain ⟨-, hcurrent, -, -, -, -, hnew⟩ := failed_commit refusingStore s
    (s.perform refusingStore .accept).2 .accept _ (.inl rfl) (Prod.ext hanswer rfl)
  obtain ⟨hnone, -, hplace⟩ := hnew [['a']] (fun h => nomatch h)
  exact ⟨hanswer, hcurrent, rfl, hnone, hplace⟩

/-- A store whose codec refuses every profile for its fields, and names none of them. -/
def blamingStore : Store :=
  ⟨⟨"d/f"⟩, { Codec.xml with serialize := fun _ => .error (.invalidFields []) }⟩

/-- An error about invalid fields that is not the gate's: every field is valid, the codec refuses
    to write, and the directory that was made for the fixed file is left. -/
theorem directory_left_by_invalidFields :
    let s := Session.start .default
    let (answer, s') := s.perform blamingStore .accept
    s.editor.invalidFields = [] ∧ answer = .failed (.invalidFields []) ∧
      s.files.entry [['d']] = none ∧ s'.files.entry [['d']] = some .directory :=
  ⟨rfl, rfl, rfl, rfl⟩

end ChipSettings
