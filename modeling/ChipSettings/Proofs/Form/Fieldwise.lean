import ChipSettings.Editor
import ChipSettings.Proofs.Form.Values

/-! # Committing Field by Field

  A commit stores the texts of a form one after the other in one profile. No field gets in
  the way of another, so that what is committed is told field by field.

  - `Profile.value p f` is the value of a field, `Field.parse? f text` what a text stands for.
  - `value_write_self`, `value_write_of_ne`: storing one text. `value_foldl_write`: storing the
    texts of any fields in any order, some of them more than once.
  - `value_commitInto`, `layers_commitInto`: what a commit makes of a profile.
  - `value_commitInto_ofProfile`: what it makes of a profile when the form shows another one.
-/

namespace ChipSettings

open Number

/-! ## Values -/

/-- The value of a field: a count or a real. -/
inductive FieldValue where
  | count (n : Int32)
  | real (x : Binary64)
deriving DecidableEq

/-- Is the value neither an infinity nor no number at all? -/
def FieldValue.isFinite : FieldValue → Bool
  | count _ => true
  | real x => x.isFinite

/-- The value that the profile has in a field. -/
def Profile.value (p : Profile) : Field → FieldValue
  | .punchBarNumber => .count p.punchBarNumber
  | .measure m => .real (p.real m)

/-- The value that a text stands for in a field, if it is a number of the field. -/
def Field.parse? (text : String) : Field → Option FieldValue
  | punchBarNumber => (readInteger text).map .count
  | measure _ => (readNumber text).map .real

namespace Profile

variable {p q : Profile}

theorem sameValue_iff {f : Field} : f.SameValue p q ↔ p.value f = q.value f := by
  cases f with
  | punchBarNumber => exact (FieldValue.count.injEq ..).symm.to_iff
  | measure m => exact (FieldValue.real.injEq ..).symm.to_iff

/-- Profiles with the same layer lists and the same values are equal. -/
theorem eq_of_sameValue (hlayers : ∀ k, p.layers k = q.layers k)
    (hvalues : ∀ f : Field, f.SameValue p q) : p = q :=
  ext_parts hlayers (hvalues .punchBarNumber) fun m => hvalues (.measure m)

/-- A profile is its eleven values and its two lists of names. -/
theorem eq_of_values (hvalues : ∀ f, p.value f = q.value f)
    (hlayers : ∀ k, p.layers k = q.layers k) : p = q :=
  eq_of_sameValue hlayers fun f => sameValue_iff.2 (hvalues f)

end Profile

namespace Field

variable {f g : Field} {text : String} {p : Profile}

/-- A text that is no number stands for no value. -/
theorem reads_eq_isSome_parse? : f.reads text = (f.parse? text).isSome := by
  cases f with
  | punchBarNumber => exact Option.isSome_map.symm
  | measure m => exact Option.isSome_map.symm

/-- A text matches the value that it stands for. -/
theorem matches_iff_parse? : f.Matches text p ↔ f.parse? text = some (p.value f) := by
  cases f with
  | punchBarNumber => simp [Matches, parse?, Profile.value]
  | measure m => simp [Matches, parse?, Profile.value]

/-- What a field shows stands for its value, if that is finite, and else for none. -/
theorem parse?_read (f : Field) (p : Profile) :
    f.parse? (f.read p) = if (p.value f).isFinite then some (p.value f) else none := by
  cases f with
  | punchBarNumber =>
    rw [parse?, readInteger_read]
    rfl
  | measure m =>
    have hfinite : (p.value (measure m)).isFinite = (p.real m).isFinite := rfl
    rw [parse?, readNumber_read, hfinite]
    by_cases h : (p.real m).isFinite = true
    · rw [if_pos h, if_pos h]
      rfl
    · rw [if_neg h, if_neg h]
      rfl

/-- Layer lists have nothing to do with the numbers. -/
theorem sameValue_setLayers (f : Field) (p : Profile) (k : LayerKind) (names : List String) :
    f.SameValue (p.setLayers k names) p := by
  cases f with
  | punchBarNumber => exact Profile.punchBarNumber_setLayers p k names
  | measure m => exact Profile.real_setLayers p k names m

/-! ## Storing One Text -/

/-- A text is stored if it stands for a value, and the value stays otherwise. -/
@[simp] theorem value_write_self (f : Field) (p : Profile) (text : String) :
    (f.write p text).value f = (f.parse? text).getD (p.value f) := by
  cases f with
  | punchBarNumber =>
    unfold write write? parse?
    cases readInteger text with
    | none => rfl
    | some n => rfl
  | measure m =>
    unfold write write? parse?
    cases readNumber text with
    | none => rfl
    | some x => exact congrArg FieldValue.real (Profile.real_setReal_self p m x)

/-- Storing a text in one field leaves the value of another. -/
theorem value_write_of_ne (hne : g ≠ f) (p : Profile) (text : String) :
    (f.write p text).value g = p.value g := by
  cases f with
  | punchBarNumber =>
    unfold write write?
    cases readInteger text with
    | none => rfl
    | some n =>
      cases g with
      | punchBarNumber => exact absurd rfl hne
      | measure m => cases m <;> rfl
  | measure m =>
    unfold write write?
    cases readNumber text with
    | none => rfl
    | some x =>
      cases g with
      | punchBarNumber => exact congrArg FieldValue.count (Profile.punchBarNumber_setReal p m x)
      | measure m' =>
        have hm : m' ≠ m := fun heq => hne (by rw [heq])
        exact congrArg FieldValue.real (Profile.real_setReal_of_ne p x hm)

end Field

/-! ## Storing All Texts -/

namespace Editor

variable {e : Editor} {f : Field}

/-- Storing the texts of fields, in whatever order, stores the text of each, and nothing else. -/
theorem value_foldl_write (e : Editor) (fields : List Field) (p : Profile) (f : Field) :
    (fields.foldl (fun p g => g.write p (e.texts g)) p).value f =
      if f ∈ fields then (f.parse? (e.texts f)).getD (p.value f) else p.value f := by
  induction fields generalizing p with
  | nil => simp
  | cons g fields ih =>
    rw [List.foldl_cons, ih]
    by_cases hfg : f = g
    · subst hfg
      -- a text that is stored again is the same text
      rw [Field.value_write_self, if_pos List.mem_cons_self]
      cases f.parse? (e.texts f) with
      | none => simp
      | some v => simp
    · rw [Field.value_write_of_ne hfg]
      simp [hfg]

/-- So it is with the checked names of layer kinds. -/
theorem layers_foldl_setLayers (e : Editor) (kinds : List LayerKind) (p : Profile)
    (k : LayerKind) :
    (kinds.foldl (fun p k => p.setLayers k (e.checklists k).checkedNames) p).layers k =
      if k ∈ kinds then (e.checklists k).checkedNames else p.layers k := by
  induction kinds generalizing p with
  | nil => simp
  | cons k' kinds ih =>
    rw [List.foldl_cons, ih]
    by_cases hk : k = k'
    · subst hk
      simp
    · rw [Profile.layers_setLayers_of_ne p _ hk]
      simp [hk]

/-- Layer names are no values of fields. -/
theorem value_foldl_setLayers (e : Editor) (kinds : List LayerKind) (p : Profile) (f : Field) :
    (kinds.foldl (fun p k => p.setLayers k (e.checklists k).checkedNames) p).value f =
      p.value f := by
  induction kinds generalizing p with
  | nil => rfl
  | cons k kinds ih =>
    rw [List.foldl_cons, ih]
    exact Profile.sameValue_iff.1 (f.sameValue_setLayers p k _)

/-! ## Committing -/

/-- A commit sets each field to the value of its text, if it stands for one. -/
@[simp] theorem value_commitInto (e : Editor) (p : Profile) (f : Field) :
    (e.commitInto p).value f = (f.parse? (e.texts f)).getD (p.value f) := by
  rw [commitInto, value_foldl_setLayers, value_foldl_write, if_pos (Field.mem_all f)]

/-- The layer lists are the checked names. -/
@[simp] theorem layers_commitInto (e : Editor) (p : Profile) (k : LayerKind) :
    (e.commitInto p).layers k = (e.checklists k).checkedNames := by
  rw [commitInto, layers_foldl_setLayers, if_pos (LayerKind.mem_all k)]

/-- A text that is a number is committed. -/
theorem matches_commitInto (h : f.reads (e.texts f) = true) (p : Profile) :
    f.Matches (e.texts f) (e.commitInto p) := by
  rw [Field.reads_eq_isSome_parse?, Option.isSome_iff_exists] at h
  obtain ⟨v, hv⟩ := h
  rw [Field.matches_iff_parse?, value_commitInto, hv, Option.getD_some]

/-- For a text that is no number, the value stays as it is in the profile. -/
theorem sameValue_commitInto (h : f.reads (e.texts f) = false) (p : Profile) :
    f.SameValue (e.commitInto p) p := by
  rw [Field.reads_eq_isSome_parse?, Option.isSome_eq_false_iff, Option.isNone_iff_eq_none] at h
  rw [Profile.sameValue_iff, value_commitInto, h, Option.getD_none]

/-- A form that shows a profile commits the finite values of that profile. -/
theorem value_commitInto_ofProfile (p q : Profile) (f : Field) :
    ((ofProfile p).commitInto q).value f =
      if (p.value f).isFinite then p.value f else q.value f := by
  have hshown : (ofProfile p).texts f = f.read p := rfl
  rw [value_commitInto, hshown, Field.parse?_read]
  by_cases h : (p.value f).isFinite = true
  · rw [if_pos h, if_pos h, Option.getD_some]
  · rw [if_neg h, if_neg h, Option.getD_none]

/-- A form that shows a profile commits the values of that profile back into it. -/
theorem sameValue_commitInto_ofProfile (p : Profile) (f : Field) :
    f.SameValue ((ofProfile p).commitInto p) p := by
  rw [Profile.sameValue_iff, value_commitInto_ofProfile, ite_self]

end Editor

end ChipSettings
