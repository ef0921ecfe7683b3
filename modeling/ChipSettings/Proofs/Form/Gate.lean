import ChipSettings.Proofs.Form.Commit
import ChipSettings.Proofs.Form.Fieldwise
import ChipSettings.Session

/-! # The Gate over Whole Editing Runs

  Validation is lazy: typing does not validate, and loading takes a profile's values to be
  valid. The gate looks at verdicts only, and committing skips texts that are no numbers.

  - `editedAfter` keeps track of the fields whose text was edited since they were last
    validated or loaded.
  - `Settled` is the invariant: for every other field, the last verdict is what validation
    says about the text now. Each operation keeps it (`settled_perform`), and so does every
    run of them (`settled_run`).
  - `gate_sound`: where no field is edited, the gate opens exactly if all texts validate,
    and what passes it is in range and made of the texts alone.
-/

namespace ChipSettings

open Files Number

namespace Editor

/-! ## Validating -/

/-- Validating fields one after the other changes no text and no layer, and decides their
    verdicts. -/
theorem foldl_leaveField (fields : List Field) (e : Editor) :
    (fields.foldl leaveField e).texts = e.texts ∧
      (fields.foldl leaveField e).checklists = e.checklists ∧
      ∀ f, (fields.foldl leaveField e).verdicts f =
        if f ∈ fields then f.validate (e.texts f) else e.verdicts f := by
  induction fields generalizing e with
  | nil => exact ⟨rfl, rfl, fun f => by simp⟩
  | cons g fields ih =>
    obtain ⟨htexts, hchecklists, hverdicts⟩ := ih (e.leaveField g)
    refine ⟨htexts, hchecklists, fun f => ?_⟩
    rw [List.foldl_cons, hverdicts]
    show (if f ∈ fields then f.validate (e.texts f)
      else setAt e.verdicts g (g.validate (e.texts g)) f) = _
    by_cases hf : f ∈ fields
    · rw [if_pos hf, if_pos (List.mem_cons_of_mem g hf)]
    · rw [if_neg hf]
      by_cases hfg : f = g
      · rw [hfg, setAt_self, if_pos List.mem_cons_self]
      · rw [setAt_of_ne _ _ hfg, if_neg]
        intro hmem
        rcases List.mem_cons.1 hmem with h | h
        · exact hfg h
        · exact hf h

@[simp] theorem texts_validateAll (e : Editor) : e.validateAll.texts = e.texts :=
  (foldl_leaveField Field.all e).1

@[simp] theorem checklists_validateAll (e : Editor) : e.validateAll.checklists = e.checklists :=
  (foldl_leaveField Field.all e).2.1

@[simp] theorem verdicts_validateAll (e : Editor) (f : Field) :
    e.validateAll.verdicts f = f.validate (e.texts f) := by
  rw [validateAll, (foldl_leaveField Field.all e).2.2, if_pos (Field.mem_all f)]

/-- Appending a layer changes the checklist of its kind and nothing else. -/
theorem exists_of_addLayer? {e e' : Editor} {k : LayerKind} (h : e.addLayer? k = some e') :
    ∃ c, e' = e.setChecklist k c := by
  simp only [addLayer?, Option.map_eq_some_iff] at h
  obtain ⟨c, -, hc⟩ := h
  exact ⟨c, hc.symm⟩

/-! ## Settled Verdicts -/

/-- For every field that was not edited, the last verdict is that of the text. -/
def Settled (e : Editor) (edited : Field → Bool) : Prop :=
  ∀ f, edited f = false → e.verdicts f = f.validate (e.texts f)

/-- A form that was filled from a profile in range is settled. -/
theorem settled_ofProfile {p : Profile} (h : p.InRange) (edited : Field → Bool) :
    (ofProfile p).Settled edited := by
  intro f _
  exact ((f.validate_read_iff p).2 (Profile.inRange_iff.1 h f)).symm

/-- A form that was validated is settled. -/
theorem settled_validateAll (e : Editor) (edited : Field → Bool) :
    e.validateAll.Settled edited := by
  intro f _
  rw [verdicts_validateAll, texts_validateAll]

/-- Editing a text settles nothing else, and the edited field is marked. -/
theorem Settled.setText {e : Editor} {edited : Field → Bool} (h : e.Settled edited) (f : Field)
    (text : String) : (e.setText f text).Settled (setAt edited f true) := by
  intro g hg
  by_cases hgf : g = f
  · rw [hgf, setAt_self] at hg
    cases hg
  · rw [setAt_of_ne _ _ hgf] at hg
    show e.verdicts g = g.validate (setAt e.texts f text g)
    rw [setAt_of_ne _ _ hgf]
    exact h g hg

/-- Validating a field settles it. -/
theorem Settled.leaveField {e : Editor} {edited : Field → Bool} (h : e.Settled edited)
    (f : Field) : (e.leaveField f).Settled (setAt edited f false) := by
  intro g hg
  show setAt e.verdicts f (f.validate (e.texts f)) g = g.validate (e.texts g)
  by_cases hgf : g = f
  · rw [hgf, setAt_self]
  · rw [setAt_of_ne _ _ hgf] at hg ⊢
    exact h g hg

end Editor

/-! ## Runs -/

/-- The operations of an editing run: everything that may happen while a form is open, if
    only profiles in range are loaded. -/
def Operation.IsEditing : Operation → Prop
  | .openForm => False
  | .load p => p.InRange
  | _ => True

namespace Session

/-- The fields whose text has been edited since they were last validated or loaded, after
    one more operation. -/
def markEdited (store : Store) (s : Session) (edited : Field → Bool) : Operation → Field → Bool
  | .setText f _ => setAt edited f true
  | .appendText f _ => setAt edited f true
  | .leaveField f => setAt edited f false
  | .validateAll => fun _ => false
  | .load _ => fun _ => false
  | .importForm path => match s.editor.importFrom store s.files path with
    | .ok _ => fun _ => false
    | .error _ => edited
  | _ => edited

/-- The fields whose text has been edited since they were last validated or loaded, after a
    run. -/
def editedAfter (store : Store) (s : Session) (edited : Field → Bool) :
    List Operation → Field → Bool
  | [] => edited
  | operation :: operations =>
    editedAfter store (s.perform store operation).2 (s.markEdited store edited operation) operations

/-- Each operation keeps the verdicts settled. -/
theorem settled_perform (store : Store) {s : Session} {edited : Field → Bool}
    (h : s.editor.Settled edited) {operation : Operation} (hediting : operation.IsEditing) :
    (s.perform store operation).2.editor.Settled (s.markEdited store edited operation) := by
  cases operation with
  | openForm => cases hediting
  | load p => exact Editor.settled_ofProfile hediting _
  | setText f text => exact h.setText f text
  | appendText f text => exact h.setText f _
  | leaveField f => exact h.leaveField f
  | validateAll => exact s.editor.settled_validateAll _
  -- layers have neither texts nor verdicts of fields
  | addLayer k =>
    unfold perform
    simp only
    split
    · next editor hadd =>
      obtain ⟨c, rfl⟩ := Editor.exists_of_addLayer? hadd
      exact h
    · exact h
  -- an import that succeeds validates everything, and one that fails changes nothing
  | importForm path =>
    unfold perform markEdited
    simp only
    cases himport : s.editor.importFrom store s.files path with
    | error e => exact h
    | ok editor =>
      obtain ⟨p, -, hload⟩ := exists_of_bind_eq_ok himport
      cases hload
      exact Editor.settled_validateAll _ _
  -- the others leave the form alone, whether they succeed or fail
  | accept => unfold perform; simp only; split <;> exact h
  | exportForm path => unfold perform; simp only; split <;> exact h
  | exportProfile path p => unfold perform; simp only; split <;> exact h
  | writeCurrent f text => unfold perform; simp only; split <;> exact h
  | _ => exact h

/-- Every run keeps the verdicts settled. -/
theorem settled_run (store : Store) (operations : List Operation) {s : Session}
    {edited : Field → Bool} (h : s.editor.Settled edited)
    (hediting : ∀ operation ∈ operations, operation.IsEditing) :
    (s.run store operations).editor.Settled (s.editedAfter store edited operations) := by
  induction operations generalizing s edited with
  | nil => exact h
  | cons operation operations ih =>
    have hstep := settled_perform store h (hediting operation List.mem_cons_self)
    exact ih hstep fun other hother => hediting other (List.mem_cons_of_mem operation hother)

end Session

/-! ## What Passes the Gate -/

/-- If all texts validate, the form commits a profile in range, with the numbers of its texts,
    and with the same numbers into whatever profile. -/
theorem Editor.commitInto_of_valid {e : Editor}
    (hvalid : ∀ f : Field, f.validate (e.texts f) = .valid) (p : Profile) :
    (e.commitInto p).InRange ∧ (∀ f : Field, f.Matches (e.texts f) (e.commitInto p)) ∧
      ∀ other, (e.commitInto p).SameNumbers (e.commitInto other) := by
  have hmatches (p : Profile) (f : Field) : f.Matches (e.texts f) (e.commitInto p) :=
    matches_commitInto (Field.reads_of_validate (hvalid f)) p
  refine ⟨Profile.inRange_iff.2 fun f => ?_, hmatches p, fun other => ?_⟩
  · exact (Field.validate_eq_valid_iff (hmatches p f)).1 (hvalid f)
  · exact Profile.sameNumbers_iff.2 fun f =>
      Field.sameValue_of_matches (hmatches p f) (hmatches other f)

/-- **The gate is sound** over every editing run that starts with a profile in range. Where no
    field has been edited since it was last validated or loaded, the gate is open exactly if
    all texts validate. What an accept or an export then writes is in range, its numbers are
    those that the texts read as, and the profile that was current has no part in them. -/
theorem gate_sound (store : Store) (s s' : Session) (p : Profile) (operations : List Operation)
    (hopen : s.editor = .ofProfile p) (hrange : p.InRange)
    (hediting : ∀ operation ∈ operations, operation.IsEditing)
    (hrun : s.run store operations = s')
    (hsettled : ∀ f, s.editedAfter store (fun _ => false) operations f = false) :
    (s'.editor.canCommit = true ↔ ∀ f : Field, f.validate (s'.editor.texts f) = .valid) ∧
      (∀ target current t q t', s'.editor.accept target current t = (.ok q, t') →
        q = s'.editor.commitInto current ∧ target.persistCurrent t q = (.ok (), t') ∧
          q.InRange ∧ (∀ f : Field, f.Matches (s'.editor.texts f) q) ∧
          ∀ other, q.SameNumbers (s'.editor.commitInto other)) ∧
      ∀ target t path t', s'.editor.exportTo target t path = .ok t' →
        ∃ q, target.exportTo t q path = .ok t' ∧ q.InRange ∧
          (∀ f : Field, f.Matches (s'.editor.texts f) q) ∧
          ∀ other, q.SameNumbers (s'.editor.commitInto other) := by
  have hverdicts (f : Field) : s'.editor.verdicts f = f.validate (s'.editor.texts f) := by
    have hstart : s.editor.Settled fun _ => false := by
      rw [hopen]
      exact Editor.settled_ofProfile hrange _
    rw [← hrun]
    exact Session.settled_run store operations hstart hediting f (hsettled f)
  have hgate : s'.editor.canCommit = true ↔
      ∀ f : Field, f.validate (s'.editor.texts f) = .valid := by
    rw [Editor.canCommit_iff]
    exact forall_congr' fun f => by rw [hverdicts f]
  refine ⟨hgate, fun target current t q t' haccept => ?_, fun target t path t' hexport => ?_⟩
  · obtain ⟨hopened, rfl, hpersist⟩ := Editor.accept_ok haccept
    exact ⟨rfl, hpersist, Editor.commitInto_of_valid (hgate.1 hopened) current⟩
  · obtain ⟨hopened, hwritten⟩ := Editor.exportTo_ok hexport
    exact ⟨_, hwritten, Editor.commitInto_of_valid (hgate.1 hopened) .default⟩

/-- The defaults, with a text edited and validated. -/
theorem gate_sound_default :
    let s' := (Session.start .default).run (.atPath ⟨"f"⟩)
      [.setText (.measure .resolution) "0", .leaveField (.measure .resolution)]
    s'.editor.canCommit = true ↔ ∀ f : Field, f.validate (s'.editor.texts f) = .valid := by
  have hediting : ∀ operation ∈ [Operation.setText (.measure .resolution) "0",
      .leaveField (.measure .resolution)], operation.IsEditing := by
    intro operation hmem
    simp only [List.mem_cons, List.not_mem_nil, or_false] at hmem
    rcases hmem with rfl | rfl
    · trivial
    · trivial
  refine (gate_sound (.atPath ⟨"f"⟩) (.start .default) _ .default _ rfl Profile.inRange_default
    hediting rfl fun f => ?_).1
  show setAt (setAt (fun _ => false) _ true) _ false f = false
  by_cases hf : f = .measure .resolution
  · rw [hf, setAt_self]
  · rw [setAt_of_ne _ _ hf, setAt_of_ne _ _ hf]

end ChipSettings
