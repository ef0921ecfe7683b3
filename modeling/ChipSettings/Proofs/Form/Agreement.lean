import ChipSettings.Proofs.Document.RoundTrip
import ChipSettings.Proofs.Form.Commit
import ChipSettings.Proofs.Form.Gate
import ChipSettings.Proofs.Store.Files

/-! # Accepting and Exporting the Same Form

  An accept commits the form into the current profile, an export commits it into the defaults.
  A text that is no number leaves a value of the one or of the other.

  - `commitInto_eq_commitInto_iff`: a form commits the same into two profiles exactly if they
    agree wherever the form holds no number.
  - `accept_export_agree`: when the documents that an accept and an export write are the same.
    `accept_export_differ` is a form for which they are not.
-/

namespace ChipSettings

open Files

/-! ## Committing into Two Profiles -/

/-- A form commits the same into two profiles if and only if they have the same value in every
    field whose text is no number. -/
theorem Editor.commitInto_eq_commitInto_iff (e : Editor) (p q : Profile) :
    e.commitInto p = e.commitInto q ↔
      ∀ f : Field, f.reads (e.texts f) = false → f.SameValue p q := by
  constructor
  · intro heq f hreads
    have hp := sameValue_commitInto hreads p
    have hq := sameValue_commitInto hreads q
    rw [heq] at hp
    exact hp.symm.trans hq
  · intro hsame
    apply Profile.eq_of_sameValue
    · intro k
      rw [layers_commitInto, layers_commitInto]
    · intro f
      cases hreads : f.reads (e.texts f) with
      | true =>
        have hp := matches_commitInto hreads p
        have hq := matches_commitInto hreads q
        exact Field.sameValue_of_matches hp hq
      | false =>
        have hp := sameValue_commitInto hreads p
        have hq := sameValue_commitInto hreads q
        exact (hp.trans (hsame f hreads)).trans hq.symm

/-! ## Documents with the Same Bytes -/

namespace Document

/-- Reading a profile back keeps the value of every field. -/
theorem sameValue_readBack (f : Field) (p : Profile) : f.SameValue (readBack p) p := by
  cases f with
  | punchBarNumber => rfl
  | measure m => exact real_readBack p m

/-- Profiles that are written alike have the same values. -/
theorem sameValue_of_serialize {p q : Profile} {a b : String}
    (hp : Codec.xml.serialize p = .ok a) (hq : Codec.xml.serialize q = .ok b)
    (hbytes : a.toUTF8 = b.toUTF8) (f : Field) : f.SameValue p q := by
  have htext : a = b := String.toByteArray_inj.1 hbytes
  obtain rfl : String.ofList (write p) = a := Except.ok.inj hp
  obtain rfl : String.ofList (write q) = b := Except.ok.inj hq
  have hread : readBack p = readBack q := by
    have hboth := deserialize_write p
    rw [htext, deserialize_write] at hboth
    exact (Except.ok.inj hboth).symm
  have hsame := sameValue_readBack f p
  rw [hread] at hsame
  exact hsame.symm.trans (sameValue_readBack f q)

end Document

/-! ## The Two Documents -/

/-- What an accept and an export of the same form write, and where it is found. -/
theorem Editor.files_of_accept_of_exportTo {e : Editor} {store : Store} {current q : Profile}
    {t t₁ t₂ : FileTree} {path : Path} (haccept : e.accept store current t = (.ok q, t₁))
    (hexport : e.exportTo store t path = .ok t₂) :
    ∃ a b : String, store.codec.serialize (e.commitInto current) = .ok a ∧
      store.codec.serialize (e.commitInto .default) = .ok b ∧
      t₁.find? store.currentPath = some (.file a.toUTF8) ∧
      t₂.find? path = some (.file b.toUTF8) := by
  obtain ⟨-, rfl, hpersist⟩ := accept_ok haccept
  obtain ⟨-, hwritten⟩ := exportTo_ok hexport
  obtain ⟨a, ha, hfixed⟩ := Store.file_of_persistCurrent hpersist
  obtain ⟨b, hb, hfile⟩ := Store.file_of_exportTo hwritten
  exact ⟨a, b, ha, hb, hfixed, hfile⟩

/-- **Accept and export write the same settings** as far as the form decides them: if both
    succeed from the same state, their files hold the same bytes, provided that every field
    whose text is no number has the default value in the current profile. For settings
    documents the bytes are the same only then. -/
theorem accept_export_agree (e : Editor) (store : Store) (current q : Profile)
    (t t₁ t₂ : FileTree) (path : Path) (haccept : e.accept store current t = (.ok q, t₁))
    (hexport : e.exportTo store t path = .ok t₂) :
    ∃ accepted exported : ByteArray,
      t₁.find? store.currentPath = some (.file accepted) ∧
      t₂.find? path = some (.file exported) ∧
      ((∀ f : Field, f.reads (e.texts f) = false → f.SameValue current .default) →
        accepted = exported) ∧
      (store.codec = .xml → accepted = exported →
        ∀ f : Field, f.reads (e.texts f) = false → f.SameValue current .default) := by
  obtain ⟨a, b, ha, hb, hfixed, hfile⟩ := Editor.files_of_accept_of_exportTo haccept hexport
  refine ⟨a.toUTF8, b.toUTF8, hfixed, hfile, ?_, ?_⟩
  · intro hsame
    rw [(e.commitInto_eq_commitInto_iff current .default).2 hsame, hb] at ha
    obtain rfl : b = a := Except.ok.inj ha
    rfl
  · intro hxml hbytes f hreads
    rw [hxml] at ha hb
    have hcommitted := Document.sameValue_of_serialize ha hb hbytes f
    have hcurrent := Editor.sameValue_commitInto hreads current
    have hdefault := Editor.sameValue_commitInto hreads .default
    exact (hcurrent.symm.trans hcommitted).trans hdefault

/-- A form of the defaults in which a width was replaced by a word and not yet left. -/
def wordedForm : Editor :=
  (Editor.ofProfile .default).setText (.measure .connectionWidth) "wide"

/-- The word in the worded form is its only text that is no number. -/
theorem eq_of_reads_wordedForm {f : Field} (h : f.reads (wordedForm.texts f) = false) :
    f = .measure .connectionWidth := by
  refine Classical.byContradiction fun hne => ?_
  have htext : wordedForm.texts f = f.read .default := setAt_of_ne _ _ hne
  have hvalid := (f.validate_read_iff .default).2 (Profile.inRange_iff.1 Profile.inRange_default f)
  rw [htext, Field.reads_of_validate hvalid] at h
  cases h

/-- The worded form is accepted and exported alike if only the radius of the current profile is
    another than that of the defaults. -/
theorem accept_export_agree_worded :
    ∃ q t₁ t₂, wordedForm.accept (.atPath ⟨"d/f"⟩)
        (Profile.default.setReal .punchRadius (Profile.constant 7 1)) .empty = (.ok q, t₁) ∧
      wordedForm.exportTo (.atPath ⟨"d/f"⟩) .empty ⟨"x"⟩ = .ok t₂ ∧
      t₁.find? ⟨"d/f"⟩ = t₂.find? ⟨"x"⟩ := by
  generalize hcurrent : Profile.default.setReal .punchRadius (Profile.constant 7 1) = current
  have haccept : ∃ q t₁, wordedForm.accept (.atPath ⟨"d/f"⟩) current .empty = (.ok q, t₁) :=
    ⟨_, _, rfl⟩
  have hexport : ∃ t₂, wordedForm.exportTo (.atPath ⟨"d/f"⟩) .empty ⟨"x"⟩ = .ok t₂ := ⟨_, rfl⟩
  obtain ⟨q, t₁, haccept⟩ := haccept
  obtain ⟨t₂, hexport⟩ := hexport
  obtain ⟨accepted, exported, hfixed, hfile, hagree, -⟩ :=
    accept_export_agree wordedForm _ current q .empty t₁ t₂ ⟨"x"⟩ haccept hexport
  refine ⟨q, t₁, t₂, haccept, hexport, ?_⟩
  have hbytes : accepted = exported := by
    apply hagree
    intro f hreads
    rw [eq_of_reads_wordedForm hreads, ← hcurrent]
    exact Profile.real_setReal_of_ne _ _ (by decide)
  rw [hfile, ← hbytes]
  exact hfixed

/-- The worded form passes the gate, and it is accepted and exported as two different documents
    if the width itself is another in the current profile. -/
theorem accept_export_differ :
    wordedForm.canCommit = true ∧
      ∃ q t₁ t₂ accepted exported, wordedForm.accept (.atPath ⟨"f"⟩)
          (Profile.default.setReal .connectionWidth (Profile.constant 7 2)) .empty = (.ok q, t₁) ∧
        wordedForm.exportTo (.atPath ⟨"f"⟩) .empty ⟨"x"⟩ = .ok t₂ ∧
        t₁.find? ⟨"f"⟩ = some (.file accepted) ∧ t₂.find? ⟨"x"⟩ = some (.file exported) ∧
        accepted ≠ exported := by
  refine ⟨rfl, ?_⟩
  generalize hcurrent : Profile.default.setReal .connectionWidth (Profile.constant 7 2) = current
  have haccept : ∃ q t₁, wordedForm.accept (.atPath ⟨"f"⟩) current .empty = (.ok q, t₁) :=
    ⟨_, _, rfl⟩
  have hexport : ∃ t₂, wordedForm.exportTo (.atPath ⟨"f"⟩) .empty ⟨"x"⟩ = .ok t₂ := ⟨_, rfl⟩
  obtain ⟨q, t₁, haccept⟩ := haccept
  obtain ⟨t₂, hexport⟩ := hexport
  obtain ⟨a, b, ha, hb, hfixed, hfile⟩ := Editor.files_of_accept_of_exportTo haccept hexport
  refine ⟨q, t₁, t₂, _, _, haccept, hexport, hfixed, hfile, ?_⟩
  intro hbytes
  -- the word leaves the width of the current profile in the one document, and the default in
  -- the other
  have hword : (Field.measure .connectionWidth).reads
      (wordedForm.texts (.measure .connectionWidth)) = false := by decide +kernel
  have hsame := ((Editor.sameValue_commitInto hword current).symm.trans
    (Document.sameValue_of_serialize ha hb hbytes _)).trans
    (Editor.sameValue_commitInto hword .default)
  have hwidth : current.real .connectionWidth = Profile.default.real .connectionWidth := hsame
  rw [← hcurrent, Profile.real_setReal_self] at hwidth
  have hother : Profile.constant 7 2 ≠ Profile.default.real .connectionWidth := by decide +kernel
  exact hother hwidth

end ChipSettings
