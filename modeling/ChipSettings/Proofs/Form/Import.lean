import ChipSettings.Proofs.Document.Truncation
import ChipSettings.Proofs.Form.Gate

/-! # Importing a File into the Form

  An import takes over all of a file or nothing of it, and it validates what it took over.

  - `Field.breaksRule`: what is wrong with a value, told by the value and not by its text.
  - `invalidFields_load`: the fields that are invalid after an import are those whose value
    breaks its rule. `commitInto_load`: if there are none, committing gives the file's profile.
  - `import_exact`: what an import does to a session, whether it fails or succeeds.
-/

namespace ChipSettings

open Files

/-! ## Values That Break Their Rule -/

/-- Does the value of the field break the field's rule? The bar count must be above zero, two
    sizes must be finite and above zero, and every other measure must be finite. -/
def Field.breaksRule (p : Profile) : Field → Bool
  | punchBarNumber => p.punchBarNumber ≤ 0
  | measure .punchRadius => !p.punchRadius.isFinite || !p.punchRadius.isPositive
  | measure .resolution => !p.resolution.isFinite || !p.resolution.isPositive
  | measure m => !(p.real m).isFinite

/-- A value that breaks no rule is in range. -/
theorem Field.breaksRule_eq_false_iff {f : Field} {p : Profile} :
    f.breaksRule p = false ↔ f.InRange p := by
  cases f with
  | punchBarNumber =>
    show decide (p.punchBarNumber ≤ 0) = false ↔ 0 < p.punchBarNumber
    rw [decide_eq_false_iff_not, Int32.not_le]
  | measure m =>
    cases m with
    | punchRadius => simp [breaksRule, InRange, rule, Profile.real]
    | resolution => simp [breaksRule, InRange, rule, Profile.real]
    | _ => simp [breaksRule, InRange, rule]

/-! ## The Form after an Import -/

namespace Editor

/-- The invalid fields of a form that was filled and validated are those whose value breaks
    its rule. What the form held before plays no part. -/
theorem invalidFields_load (e : Editor) (p : Profile) :
    (e.load p).validateAll.invalidFields = Field.all.filter (Field.breaksRule p) := by
  unfold invalidFields
  apply List.filter_congr
  intro f _
  rw [verdicts_validateAll]
  -- validation sees the text that the value is shown as
  show (!(f.validate (f.read p)).isValid) = f.breaksRule p
  cases hbreaks : f.breaksRule p with
  | false =>
    have hvalid := (f.validate_read_iff p).2 (Field.breaksRule_eq_false_iff.1 hbreaks)
    rw [hvalid]
    rfl
  | true =>
    have hinvalid : f.validate (f.read p) ≠ .valid := by
      intro hvalid
      have hrange := Field.breaksRule_eq_false_iff.2 ((f.validate_read_iff p).1 hvalid)
      rw [hbreaks] at hrange
      cases hrange
    cases hverdict : f.validate (f.read p) with
    | valid => exact absurd hverdict hinvalid
    | invalid fault => rfl

/-- If no value breaks its rule, a form that was filled and validated commits the profile that
    it was filled from, into whatever profile. -/
theorem commitInto_load (e : Editor) {p : Profile} (h : ∀ f : Field, f.InRange p) (q : Profile) :
    (e.load p).validateAll.commitInto q = p := by
  apply Profile.eq_of_sameValue
  · intro k
    rw [layers_commitInto, checklists_validateAll]
    exact Checklist.checkedNames_ofNames (p.layers k)
  · intro f
    have htext : (e.load p).validateAll.texts f = f.read p := by
      rw [texts_validateAll]
      rfl
    have hreads : f.reads ((e.load p).validateAll.texts f) = true := by
      rw [htext]
      exact Field.reads_of_validate ((f.validate_read_iff p).2 (h f))
    have hcommitted := matches_commitInto hreads q
    rw [htext] at hcommitted
    have hshown : f.Matches (f.read p) p := by
      apply Field.matches_read
      rintro m rfl
      exact (h (.measure m)).1
    exact Field.sameValue_of_matches hcommitted hshown

end Editor

/-! ## Sessions after an Import -/

/-- An import fills and validates the form if the file holds a profile. -/
theorem Session.perform_importForm_of_ok {store : Store} {s : Session} {path : Path} {p : Profile}
    (h : store.importFrom s.files path = .ok p) :
    s.perform store (.importForm path) =
      (.done, { s with editor := (s.editor.load p).validateAll }) := by
  have himport : s.editor.importFrom store s.files path = .ok (s.editor.load p).validateAll := by
    rw [Editor.importFrom, h]
    rfl
  simp only [perform, himport]

/-- An import fails if the file holds no profile. -/
theorem Session.perform_importForm_of_error {store : Store} {s : Session} {path : Path}
    {error : SettingsError} (h : store.importFrom s.files path = .error error) :
    s.perform store (.importForm path) = (.failed error, s) := by
  have himport : s.editor.importFrom store s.files path = .error error := by
    rw [Editor.importFrom, h]
    rfl
  simp only [perform, himport]

/-- **An import is all or nothing, and exact**. If it fails, the form, the current profile and
    the files are as before. It succeeds for every file whose text stands for a profile, and
    only for such a file; then the invalid fields are, in field order, those whose value in
    the profile breaks its rule, whatever the form held before. If there are none, the form
    commits exactly that profile into any other. -/
theorem import_exact (store : Store) (s : Session) (path : Path) :
    (∀ error s', s.perform store (.importForm path) = (.failed error, s') → s' = s) ∧
      (∀ text p, s.files.readText path = .ok text → store.codec.deserialize text = .ok p →
        ∃ e, s.perform store (.importForm path) = (.done, { s with editor := e }) ∧
          e.invalidFields = Field.all.filter (Field.breaksRule p) ∧
          (e.invalidFields = [] → ∀ q, e.commitInto q = p)) ∧
      ∀ s', s.perform store (.importForm path) = (.done, s') →
        ∃ text p, s.files.readText path = .ok text ∧ store.codec.deserialize text = .ok p := by
  refine ⟨?_, ?_, ?_⟩
  · intro error s' hfail
    cases himport : store.importFrom s.files path with
    | ok p =>
      rw [Session.perform_importForm_of_ok himport] at hfail
      cases hfail
    | error reason =>
      rw [Session.perform_importForm_of_error himport] at hfail
      cases hfail
      rfl
  · intro text p htext hprofile
    have himport : store.importFrom s.files path = .ok p := by
      unfold Store.importFrom
      rw [htext]
      exact hprofile
    refine ⟨(s.editor.load p).validateAll, ?_, s.editor.invalidFields_load p, ?_⟩
    · exact Session.perform_importForm_of_ok himport
    · intro hnone q
      apply Editor.commitInto_load
      intro f
      rw [Editor.invalidFields_load, List.filter_eq_nil_iff] at hnone
      exact Field.breaksRule_eq_false_iff.1 (Bool.eq_false_iff.2 (hnone f (Field.mem_all f)))
  · intro s' hdone
    cases himport : store.importFrom s.files path with
    | ok p =>
      obtain ⟨text, htext, hprofile⟩ := exists_of_bind_eq_ok himport
      exact ⟨text, p, eq_ok_of_mapError_eq_ok htext, hprofile⟩
    | error reason =>
      rw [Session.perform_importForm_of_error himport] at hdone
      cases hdone

/-- The defaults with a punch of no size, imported from a file. -/
theorem import_exact_no_radius :
    let p := { Profile.default with punchRadius := .finite false .zero }
    let files := Store.treeOfFile ['f'] (String.ofList (Document.write p)).toUTF8
    ∃ e, Session.perform (.atPath ⟨"g"⟩) ⟨.ofProfile .default, .default, files⟩
        (.importForm ⟨"f"⟩) = (.done, ⟨e, .default, files⟩) ∧
      e.invalidFields = [.measure .punchRadius] := by
  intro p files
  have htext : files.readText ⟨"f"⟩ = .ok (String.ofList (Document.write p)) :=
    FileTree.readText_of_find?_text rfl
  have hprofile : Codec.xml.deserialize (String.ofList (Document.write p)) = .ok p := by
    rw [Document.deserialize_write, Document.readBack_eq_self]
    intro k
    cases k with
    | flow => exact Document.isForeignLineEnd_of_all rfl
    | control => exact Document.isForeignLineEnd_of_all rfl
  obtain ⟨e, hdone, hinvalid, -⟩ := (import_exact (.atPath ⟨"g"⟩)
    ⟨.ofProfile .default, .default, files⟩ ⟨"f"⟩).2.1 _ p htext hprofile
  refine ⟨e, hdone, ?_⟩
  rw [hinvalid]
  decide +kernel

end ChipSettings
