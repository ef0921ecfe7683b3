import ChipSettings.Proofs.Form.Import
import ChipSettings.Proofs.Form.Restart

/-! # Exporting and Importing Again

  A form whose texts all validate can be handed on in a file: whoever imports the file gets a
  form that shows the exported profile and writes the same file again.

  - `inRange_commitInto` and `readBack_commitInto`: such a form commits a profile that is in
    range and survives being written and read.
  - `importFrom_of_document` and `exportTo_of_canCommit`: an import from the file of a document,
    and an export through an open gate, succeed.
  - `export_import_export`: the three put together.
-/

namespace ChipSettings

open Files FileTree Xml

namespace Editor

variable {e : Editor} {store : Store} {t : FileTree} {path : Path} {p : Profile}

/-! ## What Is Exported -/

/-- A form whose texts all validate commits values that are in range. -/
theorem inRange_commitInto (hvalid : ∀ f : Field, f.validate (e.texts f) = .valid) (p : Profile)
    (f : Field) : f.InRange (e.commitInto p) :=
  Profile.inRange_iff.1 (commitInto_of_valid hvalid p).1 f

/-- A form whose checked names hold no foreign line end commits a profile that is read back
    as it is. -/
theorem readBack_commitInto (hnames : ∀ k, ∀ name ∈ (e.checklists k).checkedNames,
    ∀ c ∈ name.toList, isForeignLineEnd c = false) (p : Profile) :
    Document.readBack (e.commitInto p) = e.commitInto p := by
  apply Document.readBack_eq_self
  intro k name hname
  rw [layers_commitInto] at hname
  exact hnames k name hname

/-! ## Importing It -/

/-- An import succeeds if the file holds the document of a profile that is read back as it is;
    the form is then filled from that profile and validated. -/
theorem importFrom_of_document (e : Editor) (hcodec : store.codec = .xml)
    (hfile : t.find? path = some (.file (String.ofList (Document.write p)).toUTF8))
    (hback : Document.readBack p = p) :
    e.importFrom store t path = .ok (e.load p).validateAll := by
  have hread : store.codec.deserialize (String.ofList (Document.write p)) = .ok p := by
    rw [hcodec, Document.deserialize_write, hback]
  rw [importFrom, Store.importFrom_of_text hfile hread]
  rfl

/-- A form that was filled with values in range passes the gate. -/
theorem canCommit_load (e : Editor) (h : ∀ f : Field, f.InRange p) :
    (e.load p).validateAll.canCommit = true := by
  rw [← invalidFields_eq_nil_iff, invalidFields_load, List.filter_eq_nil_iff]
  intro f _
  rw [Field.breaksRule_eq_false_iff.2 (h f)]
  exact Bool.false_ne_true

/-! ## Exporting It Again -/

/-- A form that passes the gate is exported to every path that can be written to. -/
theorem exportTo_of_canCommit (hgate : e.canCommit = true) (hcodec : store.codec = .xml)
    (hpath : t.Writable path) :
    ∃ t', e.exportTo store t path = .ok t' ∧ t'.find? path =
      some (.file (String.ofList (Document.write (e.commitInto .default))).toUTF8) := by
  obtain ⟨t', hwrite⟩ :=
    hpath.write (String.ofList (Document.write (e.commitInto .default))).toUTF8
  refine ⟨t', ?_, find?_of_write hwrite⟩
  have hserialize : store.codec.serialize (e.commitInto .default) =
      .ok (String.ofList (Document.write (e.commitInto .default))) := by
    rw [hcodec]
    rfl
  unfold exportTo Store.exportTo writeText
  simp only [ensureCommittable_of_canCommit hgate, hserialize, hwrite, bind, Except.bind]
  rfl

end Editor

/-- **What was exported can be imported, and is exported as the same bytes again**. Suppose that
    all texts of a form validate, that no checked layer name has a foreign line end, and that
    an export of the form succeeds. Then the file holds the document of the profile that the
    form commits into the defaults, and an import of the file succeeds whatever the form held
    before: it may be committed, all its layers are checked and are those that were checked,
    its texts are those of the exported profile, and it is exported to every path that can be
    written to as a file of exactly the same bytes. -/
theorem export_import_export (fixed path : Path) (e : Editor) (t t' : FileTree)
    (hvalid : ∀ f : Field, f.validate (e.texts f) = .valid)
    (hnames : ∀ k, ∀ name ∈ (e.checklists k).checkedNames, ∀ c ∈ name.toList,
      isForeignLineEnd c = false)
    (hexport : e.exportTo (.atPath fixed) t path = .ok t') :
    ∃ text, Codec.xml.serialize (e.commitInto .default) = .ok text ∧
      t'.find? path = some (.file text.toUTF8) ∧
      ∀ (other : Editor) (fixed' : Path), ∃ e',
        other.importFrom (.atPath fixed') t' path = .ok e' ∧ e'.canCommit = true ∧
        (∀ k, (e'.checklists k).items =
          (e.checklists k).checkedNames.map fun name => ⟨name, true⟩) ∧
        (∀ f : Field, e'.texts f = f.read (e.commitInto .default)) ∧
        ∀ (t₂ : FileTree) (path₂ : Path), t₂.Writable path₂ →
          ∃ t₃, e'.exportTo (.atPath fixed') t₂ path₂ = .ok t₃ ∧
            t₃.find? path₂ = some (.file text.toUTF8) := by
  obtain ⟨-, hwritten⟩ := Editor.exportTo_ok hexport
  obtain ⟨text, hserialize, hfile⟩ := Store.file_of_exportTo hwritten
  refine ⟨text, hserialize, hfile, fun other fixed' => ?_⟩
  have hrange := Editor.inRange_commitInto hvalid .default
  have hback := Editor.readBack_commitInto hnames .default
  have hlayers := e.layers_commitInto .default
  generalize e.commitInto .default = p at hserialize hrange hback hlayers
  obtain rfl : String.ofList (Document.write p) = text := Except.ok.inj hserialize
  have hgate := other.canCommit_load hrange
  have hcodec : (Store.atPath fixed').codec = .xml := rfl
  refine ⟨(other.load p).validateAll, other.importFrom_of_document hcodec hfile hback, hgate,
    fun k => ?_, fun f => ?_, fun t₂ path₂ hpath => ?_⟩
  · rw [Editor.checklists_validateAll, ← hlayers]
    rfl
  · rw [Editor.texts_validateAll]
    rfl
  · -- the imported form commits the profile that it was filled from, into the defaults as well
    obtain ⟨t₃, hexport₃, hfile₃⟩ := Editor.exportTo_of_canCommit hgate hcodec hpath
    rw [other.commitInto_load hrange] at hfile₃
    exact ⟨t₃, hexport₃, hfile₃⟩

/-- A width typed with an exponent, and a layer whose name needs escaping: the form is exported,
    and what another form imports is exported to a second path as the same bytes. -/
theorem export_import_export_typed :
    let e := ((Editor.ofProfile .default).setText (.measure .connectionWidth) " 2.50e1").setChecklist
      .flow (.ofNames ["<A & B>"])
    ∃ t e' t', e.exportTo (.atPath ⟨"f"⟩) .empty ⟨"x"⟩ = .ok t ∧
      Editor.importFrom (.ofProfile .default) (.atPath ⟨"f"⟩) t ⟨"x"⟩ = .ok e' ∧
      e'.texts (.measure .connectionWidth) = "25" ∧
      e'.exportTo (.atPath ⟨"f"⟩) t ⟨"y"⟩ = .ok t' ∧ t'.find? ⟨"y"⟩ = t.find? ⟨"x"⟩ := by
  intro e
  have hvalid (f : Field) : f.validate (e.texts f) = .valid := by
    by_cases hf : f = .measure .connectionWidth
    · subst hf
      decide +kernel
    · have htext : e.texts f = f.read .default := setAt_of_ne _ _ hf
      rw [htext]
      exact (f.validate_read_iff .default).2 (Profile.inRange_iff.1 Profile.inRange_default f)
  have hnames (k : LayerKind) : ∀ name ∈ (e.checklists k).checkedNames, ∀ c ∈ name.toList,
      isForeignLineEnd c = false := by
    cases k with
    | flow => exact Document.isForeignLineEnd_of_all rfl
    | control => exact Document.isForeignLineEnd_of_all rfl
  have hexport : ∃ t, e.exportTo (.atPath ⟨"f"⟩) .empty ⟨"x"⟩ = .ok t ∧
      t.Writable ⟨"y"⟩ := ⟨_, rfl, .empty, _, rfl⟩
  obtain ⟨t, hexport, hpath⟩ := hexport
  obtain ⟨text, -, hfile, himport⟩ :=
    export_import_export ⟨"f"⟩ ⟨"x"⟩ e .empty t hvalid hnames hexport
  obtain ⟨e', himport, -, -, htexts, hagain⟩ := himport (.ofProfile .default) ⟨"f"⟩
  obtain ⟨t', hexport', hfile'⟩ := hagain t ⟨"y"⟩ hpath
  refine ⟨t, e', t', hexport, himport, ?_, hexport', hfile'.trans hfile.symm⟩
  rw [htexts]
  decide +kernel

end ChipSettings
