import ChipSettings.Proofs.Files.Writing

/-! # Looking at a File Tree

  The operations that look at a tree agree on what they see.

  - `read_eq_ok_iff`: the bytes of a file are read where the file is found.
  - `fromUTF8?_eq_some_iff`: bytes are a text if the text is written as those bytes.
  - `readText_of_find?_text`: a text that was written to a file is read from it.
-/

namespace ChipSettings.Files

/-- Bytes are the text that is written as them. -/
theorem fromUTF8?_eq_some_iff {b : ByteArray} {text : String} :
    String.fromUTF8? b = some text ↔ text.toUTF8 = b := by
  unfold String.fromUTF8?
  constructor
  · intro h
    split at h
    · cases h; rfl
    · cases h
  · rintro rfl
    exact dif_pos text.isValidUTF8

namespace FileTree

variable {t : FileTree} {p : Path} {content : ByteArray}

/-- The bytes of a file are read where the file is found. -/
theorem read_eq_ok_iff : t.read p = .ok content ↔ t.find? p = some (.file content) := by
  unfold read find?
  cases hplace : t.locate p with
  | error e => simp [bind, Except.bind]
  | ok place =>
    simp only [bind, Except.bind, pure, Except.pure]
    cases hentry : t.entry place with
    | none => simp [throw, throwThe, MonadExceptOf.throw]
    | some entry =>
      cases entry with
      | directory => simp [throw, throwThe, MonadExceptOf.throw]
      | file found => simp

/-- The text of a file, if its bytes are one. -/
theorem readText_of_find? (h : t.find? p = some (.file content)) :
    t.readText p = match String.fromUTF8? content with
      | some text => .ok text
      | none => .error .notText := by
  unfold readText
  rw [read_eq_ok_iff.2 h]
  rfl

/-- A text that was written to a file is read from it. -/
theorem readText_of_find?_text {text : String} (h : t.find? p = some (.file text.toUTF8)) :
    t.readText p = .ok text := by
  rw [readText_of_find? h, fromUTF8?_eq_some_iff.2 rfl]

end FileTree

end ChipSettings.Files
