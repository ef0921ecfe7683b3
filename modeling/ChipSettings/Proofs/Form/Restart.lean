import ChipSettings.Proofs.Document.RoundTrip
import ChipSettings.Proofs.Form.Commit
import ChipSettings.Proofs.Form.Gate
import ChipSettings.Proofs.Store.Files

/-! # Accepting and Starting Again

  Settings that were accepted are those that the next start finds.

  - `Profile.equal_self`: a profile without a value that is not a number equals itself.
  - `accept_restart`: what an accept leaves in the fixed file, and what is loaded from it.
-/

namespace ChipSettings

open Files Number Text Xml

/-- Every number but `nan` equals itself. -/
theorem Number.Binary64.equal_self {x : Binary64} (h : x ≠ .nan) : x.equal x = true := by
  cases x with
  | nan => exact absurd rfl h
  | infinity negative => simp [Binary64.equal]
  | finite negative magnitude => simp [Binary64.equal]

/-- A profile equals itself if none of its measures is `nan`. -/
theorem Profile.equal_self {p : Profile} (h : ∀ m, p.real m ≠ .nan) : p.equal p = true := by
  have hreals : (Measure.all.all fun m => (p.real m).equal (p.real m)) = true := by
    rw [List.all_eq_true]
    intro m _
    exact Binary64.equal_self (h m)
  simp only [Profile.equal, beq_self_eq_true, Bool.true_and, hreals]

/-- **Accept, then start again**: an accept that succeeds makes current what the form commits
    into the profile that was current, and the fixed file then holds exactly the document of
    it. Loading this file gives the profile back, provided that no checked layer name has a
    line end of a foreign kind; the two profiles are equal unless a measure is `nan`. A form
    of the loaded profile shows the same texts and the same checked layers. -/
theorem accept_restart (e : Editor) (current q : Profile) (t t' : FileTree) (path : Path)
    (haccept : e.accept (.atPath path) current t = (.ok q, t')) :
    q = e.commitInto current ∧
      (∃ text, Codec.xml.serialize q = .ok text ∧
        t'.find? path = some (.file text.toUTF8)) ∧
      ((∀ k, ∀ name ∈ (e.checklists k).checkedNames, ∀ c ∈ name.toList,
          isForeignLineEnd c = false) →
        ∃ r, (Store.atPath path).loadCurrent t' = .ok r ∧
          (Store.atPath path).loadOrDefault t' = r ∧
          ((∀ m, q.real m ≠ .nan) → r.equal q = true) ∧
          (∀ f, (Editor.ofProfile r).texts f = (Editor.ofProfile q).texts f) ∧
          ∀ k, ((Editor.ofProfile r).checklists k).checkedNames =
            ((Editor.ofProfile q).checklists k).checkedNames) := by
  obtain ⟨-, hcommit, hpersist⟩ := Editor.accept_ok haccept
  obtain ⟨text, hserialize, hfile⟩ := Store.file_of_persistCurrent hpersist
  refine ⟨hcommit, ⟨text, hserialize, hfile⟩, ?_⟩
  intro hnames
  -- the names of the profile are the checked ones, so that reading changes none of them
  have hback : Document.readBack q = q := by
    apply Document.readBack_eq_self
    intro k name hname
    rw [hcommit, Editor.layers_commitInto] at hname
    exact hnames k name hname
  have hread : Codec.xml.deserialize text = .ok q := by
    obtain rfl : String.ofList (Document.write q) = text := Except.ok.inj hserialize
    rw [Document.deserialize_write, hback]
  have hload := Store.loadCurrent_of_text hfile hread
  have hstart := Store.loadOrDefault_of_loadCurrent hload
  exact ⟨q, hload, hstart, Profile.equal_self, fun _ => rfl, fun _ => rfl⟩

/-- A form with a layer whose name needs escaping, accepted where the directory of the fixed
    file is missing. -/
theorem accept_restart_new_directory :
    let e := (Editor.ofProfile .default).setChecklist .flow (.ofNames ["<A & B>"])
    ∃ q t' r, e.accept (.atPath ⟨"d/f"⟩) .default .empty = (.ok q, t') ∧
      q.flowLayers = ["<A & B>"] ∧ (Store.atPath ⟨"d/f"⟩).loadCurrent t' = .ok r ∧
      r.equal q = true := by
  intro e
  have haccept : ∃ t', e.accept (.atPath ⟨"d/f"⟩) .default .empty =
      (.ok (e.commitInto .default), t') := ⟨_, rfl⟩
  obtain ⟨t', haccept⟩ := haccept
  have hvalid (f : Field) : f.validate (e.texts f) = .valid :=
    (f.validate_read_iff .default).2 (Profile.inRange_iff.1 Profile.inRange_default f)
  have hrange := (Editor.commitInto_of_valid hvalid .default).1
  obtain ⟨-, -, hrestart⟩ := accept_restart e .default _ _ _ _ haccept
  obtain ⟨r, hload, -, hequal, -, -⟩ := hrestart (by
    intro k
    cases k with
    | flow => exact Document.isForeignLineEnd_of_all rfl
    | control => exact Document.isForeignLineEnd_of_all rfl)
  refine ⟨_, t', r, haccept, rfl, hload, hequal fun m hnan => ?_⟩
  have hfinite := hrange.finite m
  rw [hnan] at hfinite
  cases hfinite

end ChipSettings
