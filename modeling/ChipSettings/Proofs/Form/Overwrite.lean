import ChipSettings.Proofs.Form.Fieldwise

/-! # Committing Overwrites

  A commit writes eleven texts and two lists of names into one profile, one after the other. It
  is an overwrite, part by part: the order of the writes does not matter, and the second of two
  commits of one form changes nothing.

  - `Editor.commitInOrder` visits the fields and the layer kinds in a given order.
  - `commit_overwrites`: what a commit makes of a profile, whatever the order is.
  - `load_commit`: what it makes of a profile when the form was filled from another one.
-/

namespace ChipSettings

namespace Editor

variable {e : Editor}

/-! ## Committing in Any Order -/

/-- Write the texts of fields, and then the checked names of layer kinds, into a profile. -/
def commitInOrder (e : Editor) (fields : List Field) (kinds : List LayerKind) (p : Profile) :
    Profile :=
  kinds.foldl (fun p k => p.setLayers k (e.checklists k).checkedNames)
    (fields.foldl (fun p f => f.write p (e.texts f)) p)

section AllParts

variable {fields : List Field} {kinds : List LayerKind}

/-- Where every field is visited, each takes the value of its text. -/
theorem value_commitInOrder (hfields : ∀ f, f ∈ fields) (p : Profile) (f : Field) :
    (e.commitInOrder fields kinds p).value f = (f.parse? (e.texts f)).getD (p.value f) := by
  rw [commitInOrder, value_foldl_setLayers, value_foldl_write, if_pos (hfields f)]

/-- Where every kind is visited, each takes its checked names. -/
theorem layers_commitInOrder (hkinds : ∀ k, k ∈ kinds) (p : Profile) (k : LayerKind) :
    (e.commitInOrder fields kinds p).layers k = (e.checklists k).checkedNames := by
  rw [commitInOrder, layers_foldl_setLayers, if_pos (hkinds k)]

end AllParts

end Editor

/-- **A commit overwrites a profile part by part**: each field takes the value of its text if the
    text stands for one, and keeps the value of the profile otherwise, each layer list becomes
    the checked names in list order, and a profile has no other parts. Visiting the fields, or
    the layer kinds, in another order gives the same profile, and committing the form again
    into the result changes nothing. -/
theorem commit_overwrites (e : Editor) (p : Profile) :
    let q := e.commitInto p
    (∀ f, q.value f = (f.parse? (e.texts f)).getD (p.value f)) ∧
      (∀ k, q.layers k = (e.checklists k).checkedNames) ∧
      (∀ r : Profile, (∀ f, r.value f = q.value f) → (∀ k, r.layers k = q.layers k) → r = q) ∧
      (∀ fields kinds, fields.Perm Field.all → kinds.Perm LayerKind.all →
        e.commitInOrder fields kinds p = q) ∧
      e.commitInto q = q := by
  intro q
  refine ⟨e.value_commitInto p, e.layers_commitInto p,
    fun r hvalues hlayers => Profile.eq_of_values hvalues hlayers, ?_, ?_⟩
  · intro fields kinds hfields hkinds
    apply Profile.eq_of_values
    · intro f
      rw [Editor.value_commitInOrder (fun f => hfields.mem_iff.2 (Field.mem_all f)),
        Editor.value_commitInto]
    · intro k
      rw [Editor.layers_commitInOrder (fun k => hkinds.mem_iff.2 (LayerKind.mem_all k)),
        Editor.layers_commitInto]
  -- a text that stands for no value has kept the value once, and keeps it again
  · apply Profile.eq_of_values
    · intro f
      rw [Editor.value_commitInto, Editor.value_commitInto]
      cases f.parse? (e.texts f) with
      | none => rfl
      | some v => rfl
    · intro k
      rw [Editor.layers_commitInto, Editor.layers_commitInto]

/-- The form of the defaults with a text that is no number, committed from its last field to its
    first. -/
theorem commit_overwrites_backwards :
    let e := (Editor.ofProfile .default).setText (.measure .resolution) "wide"
    e.commitInOrder Field.all.reverse LayerKind.all.reverse .default = e.commitInto .default := by
  intro e
  obtain ⟨-, -, -, horder, -⟩ := commit_overwrites e .default
  exact horder _ _ (List.reverse_perm _) (List.reverse_perm _)

/-! ## Committing What Was Loaded -/

/-- **Loading and committing hands over the finite values**: a form that was filled from one
    profile and is committed into another gives it the layer lists and the bar count of the
    first, and every real of the first that is finite, to the last bit. Where the first has an
    infinity or no number, the second keeps its value. So a form that was filled from a
    profile commits that very profile into it, whatever its values are. -/
theorem load_commit (p q : Profile) :
    let r := (Editor.ofProfile p).commitInto q
    (∀ k, r.layers k = p.layers k) ∧ r.punchBarNumber = p.punchBarNumber ∧
      (∀ m, r.real m = if (p.real m).isFinite then p.real m else q.real m) ∧
      (Editor.ofProfile p).commitInto p = p := by
  intro r
  have hlayers (q : Profile) (k : LayerKind) :
      ((Editor.ofProfile p).commitInto q).layers k = p.layers k := by
    rw [Editor.layers_commitInto]
    exact Checklist.checkedNames_ofNames (p.layers k)
  refine ⟨hlayers q, ?_, ?_, ?_⟩
  · have hvalue := Editor.value_commitInto_ofProfile p q .punchBarNumber
    exact FieldValue.count.inj hvalue
  · intro m
    have hvalue := Editor.value_commitInto_ofProfile p q (.measure m)
    apply FieldValue.real.inj
    rw [apply_ite FieldValue.real]
    exact hvalue
  · apply Profile.eq_of_values _ (hlayers p)
    intro f
    rw [Editor.value_commitInto_ofProfile, ite_self]

end ChipSettings
