import ChipSettings.Proofs.Files.Growth
import ChipSettings.Proofs.Files.Looking
import ChipSettings.Store

/-! # The Store and Its Files

  The store meets the file tree in one place each way: a profile is written as the text of a
  file, and the text of a file is read as a profile.

  - `importFrom_of_file` and `loadCurrent_of_file`: what a file holds decides what is read.
  - `prepareDirectory_eq_error` and `grownBy_prepareDirectory`: how the directory of the fixed
    file may fail to be made, and what becomes of the tree in any case.
  - `persistCurrent_eq_ok_iff` and `persistCurrent_eq_error`: the fixed file is written once
    its directory is prepared, and either of the two may fail.
  - `file_of_exportTo` and `file_of_persistCurrent`: after writing, the file holds the text
    of the profile. What became of the directories on the way does not matter.
-/

namespace ChipSettings.Store

open Files FileTree

variable {store : Store} {t t' : FileTree} {p : Profile} {path : Path} {b : ByteArray}
  {text : String}

/-! ## Reading -/

/-- What a file holds decides what is read from it. -/
theorem importFrom_of_file (hfile : t.find? path = some (.file b)) :
    store.importFrom t path = match String.fromUTF8? b with
      | some text => store.codec.deserialize text
      | none => .error (.io path .notText) := by
  unfold importFrom
  rw [readText_of_find? hfile]
  cases String.fromUTF8? b with
  | none => rfl
  | some text => rfl

/-- The profile that the text of a file stands for is read from it. -/
theorem importFrom_of_text (hfile : t.find? path = some (.file text.toUTF8))
    (hread : store.codec.deserialize text = .ok p) : store.importFrom t path = .ok p := by
  rw [importFrom_of_file hfile, fromUTF8?_eq_some_iff.2 rfl]
  exact hread

/-- What the fixed file holds decides what is loaded. -/
theorem loadCurrent_of_file (hfile : t.find? store.currentPath = some (.file b)) :
    store.loadCurrent t = match String.fromUTF8? b with
      | some text => store.codec.deserialize text
      | none => .error (.io store.currentPath .notText) := by
  have hthere : t.contains store.currentPath = true := by
    rw [contains, hfile]
    rfl
  rw [loadCurrent, if_pos hthere, importFrom_of_file hfile]

/-- The profile that the text of the fixed file stands for is loaded. -/
theorem loadCurrent_of_text (hfile : t.find? store.currentPath = some (.file text.toUTF8))
    (hread : store.codec.deserialize text = .ok p) : store.loadCurrent t = .ok p := by
  rw [loadCurrent_of_file hfile, fromUTF8?_eq_some_iff.2 rfl]
  exact hread

/-- What is loaded without an error is what an application starts with. -/
theorem loadOrDefault_of_loadCurrent (h : store.loadCurrent t = .ok p) :
    store.loadOrDefault t = p := by
  rw [loadOrDefault, h]

/-! ## Preparing the Directory -/

variable {error : SettingsError}

/-- Preparing the directory of the fixed file adds directories above it. -/
theorem grownBy_prepareDirectory (store : Store) (t : FileTree) :
    GrownBy store.currentPath.ancestors t (store.prepareDirectory t).2 := by
  unfold prepareDirectory
  split
  · exact .refl _ t
  · next dir above hancestors =>
    rw [hancestors]
    split
    · exact .refl _ t
    · exact grownBy_makeDirectories t (dir :: above)

/-- Preparing the directory fails where making it and those above it fails, and the error names
    it. -/
theorem prepareDirectory_eq_error (h : store.prepareDirectory t = (.error error, t')) :
    ∃ dir above cause, store.currentPath.ancestors = dir :: above ∧ t.contains dir = false ∧
      t.makeDirectories (dir :: above) = (.error cause, t') ∧ error = .io dir cause := by
  unfold prepareDirectory at h
  split at h
  · cases h
  · next dir above hancestors =>
    split at h
    · cases h
    · next hmissing =>
      have hresult : (t.makeDirectories (dir :: above)).1.mapError (.io dir) = .error error :=
        congrArg Prod.fst h
      have htree : (t.makeDirectories (dir :: above)).2 = t' := congrArg Prod.snd h
      obtain ⟨cause, hmake, hcause⟩ := exists_of_mapError_eq_error hresult
      exact ⟨dir, above, cause, hancestors, eq_false_of_ne_true hmissing, Prod.ext hmake htree,
        hcause.symm⟩

/-! ## Writing -/

/-- Writing a file fails for reasons of the codec or of the file system, and in that case the
    error names the file. -/
theorem exportTo_eq_error (h : store.exportTo t p path = .error error) :
    store.codec.serialize p = .error error ∨ ∃ cause, error = .io path cause := by
  rcases or_of_bind_eq_error h with hserialize | ⟨text, -, hwrite⟩
  · exact .inl hserialize
  · obtain ⟨cause, -, hcause⟩ := exists_of_mapError_eq_error hwrite
    exact .inr ⟨cause, hcause.symm⟩

/-- The fixed file is written like any other, once its directory is prepared. -/
theorem persistCurrent_eq_ok_iff : store.persistCurrent t p = (.ok (), t') ↔
    ∃ between, store.prepareDirectory t = (.ok (), between) ∧
      store.exportTo between p store.currentPath = .ok t' := by
  unfold persistCurrent
  constructor
  · intro h
    split at h
    · cases h
    · next between hprepare =>
      split at h
      · cases h
      · next hexport => cases h; exact ⟨between, hprepare, hexport⟩
  · rintro ⟨between, hprepare, hexport⟩
    simp only [hprepare, hexport]

/-- It is not written where one of the two fails. The prepared directory stays. -/
theorem persistCurrent_eq_error (h : store.persistCurrent t p = (.error error, t')) :
    store.prepareDirectory t = (.error error, t') ∨ store.prepareDirectory t = (.ok (), t') ∧
      store.exportTo t' p store.currentPath = .error error := by
  unfold persistCurrent at h
  split at h
  · next hprepare => cases h; exact .inl hprepare
  · next hprepare =>
    split at h
    · next hexport => cases h; exact .inr ⟨hprepare, hexport⟩
    · cases h

/-- After an export the file holds the text of the profile. -/
theorem file_of_exportTo (h : store.exportTo t p path = .ok t') :
    ∃ text, store.codec.serialize p = .ok text ∧ t'.find? path = some (.file text.toUTF8) := by
  obtain ⟨text, hserialize, hwrite⟩ := exists_of_bind_eq_ok h
  exact ⟨text, hserialize, find?_of_write (eq_ok_of_mapError_eq_ok hwrite)⟩

/-- Once the current settings are kept, the fixed file holds their text. -/
theorem file_of_persistCurrent (h : store.persistCurrent t p = (.ok (), t')) :
    ∃ text, store.codec.serialize p = .ok text ∧
      t'.find? store.currentPath = some (.file text.toUTF8) := by
  obtain ⟨between, -, hexport⟩ := persistCurrent_eq_ok_iff.1 h
  exact file_of_exportTo hexport

end ChipSettings.Store
