import ChipSettings.Editor
import ChipSettings.Proofs.Outcome

/-! # Accepting, Exporting and Importing

  What the operations of the form on files do, case by case. The first two are gated.

  - The gate is open if every last verdict is valid (`canCommit_iff`), and it refuses with
    the fields that are not (`ensureCommittable_error`).
  - `accept_ok` and `accept_error` are all that an accept can do; `exportTo_ok` and
    `exportTo_error` are all that an export can do. Proofs about the two use these and
    never unfold them.
-/

namespace ChipSettings.Editor

open Files

/-! ## The Gate -/

/-- The gate opens if every last verdict is valid. -/
theorem canCommit_iff (e : Editor) : e.canCommit = true ↔ ∀ f, e.verdicts f = .valid := by
  have hvalid (v : Verdict) : v.isValid = true ↔ v = .valid := by
    cases v <;> simp [Verdict.isValid]
  rw [canCommit, allValid, List.all_eq_true]
  constructor
  · intro h f
    exact (hvalid _).1 (h f (Field.mem_all f))
  · intro h f _
    exact (hvalid _).2 (h f)

/-- No field is invalid where the gate is open. -/
theorem invalidFields_eq_nil_iff (e : Editor) : e.invalidFields = [] ↔ e.canCommit = true := by
  rw [invalidFields, List.filter_eq_nil_iff, canCommit, allValid, List.all_eq_true]
  simp

variable {e : Editor} {store : Store} {t t' : FileTree} {current : Profile}
  {error : SettingsError}

/-- The gate refuses with the fields that are invalid. -/
theorem ensureCommittable_error (h : e.ensureCommittable = .error error) :
    e.invalidFields ≠ [] ∧ error = .invalidFields e.invalidFields := by
  unfold ensureCommittable at h
  split at h
  · cases h
  · next hinvalid =>
    cases h
    exact ⟨fun hnil => hinvalid (by rw [hnil]; rfl), rfl⟩

/-- The gate is passed if no field is invalid. -/
theorem ensureCommittable_ok {u : Unit} (h : e.ensureCommittable = .ok u) :
    e.invalidFields = [] := by
  unfold ensureCommittable at h
  split at h
  · next hvalid => exact List.isEmpty_iff.1 hvalid
  · cases h

/-- A form with no invalid field passes the gate. -/
theorem ensureCommittable_of_canCommit (h : e.canCommit = true) :
    e.ensureCommittable = .ok () := by
  rw [ensureCommittable, (invalidFields_eq_nil_iff e).2 h]
  rfl

/-- A form with an invalid field is refused. -/
theorem ensureCommittable_of_invalid (h : e.invalidFields ≠ []) :
    e.ensureCommittable = .error (.invalidFields e.invalidFields) := by
  rw [ensureCommittable, if_neg fun hempty => h (List.isEmpty_iff.1 hempty)]

/-! ## Accepting -/

/-- An accept that succeeds has passed the gate and written what the form commits. -/
theorem accept_ok {q : Profile} (h : e.accept store current t = (.ok q, t')) :
    e.canCommit = true ∧ q = e.commitInto current ∧ store.persistCurrent t q = (.ok (), t') := by
  unfold accept at h
  split at h
  · cases h
  · next hgate =>
    have hresult : (store.persistCurrent t (e.commitInto current)).1.map
        (fun _ => e.commitInto current) = .ok q := congrArg Prod.fst h
    have htree : (store.persistCurrent t (e.commitInto current)).2 = t' := congrArg Prod.snd h
    obtain ⟨u, hpersist, rfl⟩ := exists_of_map_eq_ok hresult
    exact ⟨(invalidFields_eq_nil_iff e).1 (ensureCommittable_ok hgate), rfl,
      Prod.ext hpersist htree⟩

/-- An accept fails at the gate, or while the fixed file is written. -/
theorem accept_error (h : e.accept store current t = (.error error, t')) :
    (e.invalidFields ≠ [] ∧ error = .invalidFields e.invalidFields ∧ t' = t) ∨
      (e.invalidFields = [] ∧
        store.persistCurrent t (e.commitInto current) = (.error error, t')) := by
  unfold accept at h
  split at h
  · next hgate =>
    cases h
    obtain ⟨hinvalid, rfl⟩ := ensureCommittable_error hgate
    exact .inl ⟨hinvalid, rfl, rfl⟩
  · next hgate =>
    right
    refine ⟨ensureCommittable_ok hgate, ?_⟩
    have hresult : (store.persistCurrent t (e.commitInto current)).1.map
        (fun _ => e.commitInto current) = .error error := congrArg Prod.fst h
    have htree : (store.persistCurrent t (e.commitInto current)).2 = t' := congrArg Prod.snd h
    exact Prod.ext (eq_error_of_map_eq_error hresult) htree

/-- An accept of a form that passes the gate succeeds if the fixed file can be written. -/
theorem accept_of_canCommit (hgate : e.canCommit = true)
    (hpersist : store.persistCurrent t (e.commitInto current) = (.ok (), t')) :
    e.accept store current t = (.ok (e.commitInto current), t') := by
  unfold accept
  simp only [ensureCommittable_of_canCommit hgate, hpersist]
  rfl

/-! ## Exporting -/

/-- An export that succeeds has passed the gate and written what the form commits into the
    defaults. -/
theorem exportTo_ok {path : Path} (h : e.exportTo store t path = .ok t') :
    e.canCommit = true ∧ store.exportTo t (e.commitInto .default) path = .ok t' := by
  obtain ⟨u, hgate, h⟩ := exists_of_bind_eq_ok h
  exact ⟨(invalidFields_eq_nil_iff e).1 (ensureCommittable_ok hgate), h⟩

/-- An export fails at the gate, or while the file is written. -/
theorem exportTo_error {path : Path} (h : e.exportTo store t path = .error error) :
    (e.invalidFields ≠ [] ∧ error = .invalidFields e.invalidFields) ∨
      (e.invalidFields = [] ∧ store.exportTo t (e.commitInto .default) path = .error error) := by
  rcases or_of_bind_eq_error h with hgate | ⟨u, hgate, h⟩
  · exact .inl (ensureCommittable_error hgate)
  · exact .inr ⟨ensureCommittable_ok hgate, h⟩

/-! ## Importing -/

/-- An import that succeeds fills the form from the file and validates all of it. -/
theorem importFrom_ok {e' : Editor} {path : Path} (h : e.importFrom store t path = .ok e') :
    ∃ p, store.importFrom t path = .ok p ∧ e' = (e.load p).validateAll := by
  obtain ⟨p, hread, h⟩ := exists_of_bind_eq_ok h
  exact ⟨p, hread, (Except.ok.inj h).symm⟩

end ChipSettings.Editor
