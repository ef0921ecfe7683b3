import ChipSettings.Proofs.Form.Fieldwise

/-! # Checking and Storing a Text

  A text is checked against the rule of its field, and it is stored in a profile. The two read
  the text on their own, and only the check asks whether the value is in range. They agree:

  - `isSome_write?`: a text is stored if it is a number of its field. By `reads_iff_validate` these
    are the texts that the check calls valid or not positive.
  - `validate_congr`: the check depends on nothing but the value that the text stands for.
  - `write?_eq_some_iff`: what storing a text does to a profile.
  - `stored_as_validated`: so the text that is shown for a stored value gets the verdict that the
    stored text got, and storing it again changes nothing.
-/

namespace ChipSettings

namespace Field

variable {f : Field} {p q : Profile} {text text' : String}

/-! ## Checking -/

/-- Texts that stand for the same value get the same verdict. -/
theorem validate_congr (h : f.parse? text = f.parse? text') :
    f.validate text = f.validate text' := by
  cases f with
  | punchBarNumber =>
    have hread : readInteger text = readInteger text' :=
      Option.map_injective (fun _ _ => FieldValue.count.inj) h
    show Rule.positiveInteger.check text = Rule.positiveInteger.check text'
    unfold Rule.check
    rw [hread]
  | measure m =>
    have hread : readNumber text = readNumber text' :=
      Option.map_injective (fun _ _ => FieldValue.real.inj) h
    show (measure m).rule.check text = (measure m).rule.check text'
    rcases rule_measure m with hrule | hrule
    · rw [hrule]
      unfold Rule.check
      rw [hread]
    · rw [hrule]
      unfold Rule.check
      rw [hread]

/-- A text stands for finite values only. -/
theorem isFinite_of_parse? {v : FieldValue} (h : f.parse? text = some v) : v.isFinite = true := by
  cases f with
  | punchBarNumber =>
    obtain ⟨n, -, rfl⟩ := Option.map_eq_some_iff.1 h
    rfl
  | measure m =>
    obtain ⟨x, hx, rfl⟩ := Option.map_eq_some_iff.1 h
    exact (Option.filter_eq_some_iff.1 hx).2

/-! ## Storing -/

/-- A text is stored if it is a number of its field. -/
theorem isSome_write? : (f.write? p text).isSome = f.reads text := by
  cases f with
  | punchBarNumber => exact Option.isSome_map
  | measure m => exact Option.isSome_map

/-- A text that stands for no value is not stored. -/
theorem write?_eq_none_iff : f.write? p text = none ↔ f.parse? text = none := by
  rw [← Option.not_isSome_iff_eq_none, isSome_write?, reads_eq_isSome_parse?,
    Option.not_isSome_iff_eq_none]

/-- A text that is no number leaves the profile as it is. -/
theorem write_of_eq_none (h : f.write? p text = none) : f.write p text = p := by
  rw [write, h, Option.getD_none]

theorem write_of_eq_some (h : f.write? p text = some q) : f.write p text = q := by
  rw [write, h, Option.getD_some]

theorem write?_of_reads (h : f.reads text = true) : f.write? p text = some (f.write p text) := by
  rw [← isSome_write? (p := p), Option.isSome_iff_exists] at h
  obtain ⟨q, hq⟩ := h
  rw [hq, write_of_eq_some hq]

/-- Storing a text changes no layer list. -/
theorem layers_write (f : Field) (p : Profile) (text : String) (k : LayerKind) :
    (f.write p text).layers k = p.layers k := by
  cases hq : f.write? p text with
  | none => rw [write_of_eq_none hq]
  | some q =>
    rw [write_of_eq_some hq]
    cases f with
    | punchBarNumber =>
      obtain ⟨n, -, rfl⟩ := Option.map_eq_some_iff.1 hq
      cases k <;> rfl
    | measure m =>
      obtain ⟨x, -, rfl⟩ := Option.map_eq_some_iff.1 hq
      exact Profile.layers_setReal p m x k

/-- A text that is stored stands for the value that is in the profile then. -/
theorem parse?_of_write? (h : f.write? p text = some q) : f.parse? text = some (q.value f) := by
  have hreads : (f.parse? text).isSome = true := by
    rw [← reads_eq_isSome_parse?, ← isSome_write? (p := p), h, Option.isSome_some]
  obtain ⟨v, hv⟩ := Option.isSome_iff_exists.1 hreads
  rw [← write_of_eq_some h, value_write_self, hv, Option.getD_some]

/-- A text is stored by putting the value that it stands for in the place of the field's, and
    nowhere else. -/
theorem write?_eq_some_iff :
    f.write? p text = some q ↔ f.parse? text = some (q.value f) ∧
      (∀ g, g ≠ f → q.value g = p.value g) ∧ ∀ k, q.layers k = p.layers k := by
  constructor
  · intro h
    have hwrite := write_of_eq_some h
    refine ⟨parse?_of_write? h, fun g hne => ?_, fun k => ?_⟩
    · rw [← hwrite, value_write_of_ne hne]
    · rw [← hwrite, layers_write]
  · rintro ⟨hparse, hother, hlayers⟩
    have hreads : f.reads text = true := by
      rw [reads_eq_isSome_parse?, hparse, Option.isSome_some]
    rw [write?_of_reads hreads]
    -- both profiles hold the value of the text in `f`, and all else of `p`
    apply congrArg some
    apply Profile.eq_of_values
    · intro g
      by_cases hg : g = f
      · rw [hg, value_write_self, hparse, Option.getD_some]
      · rw [value_write_of_ne hg, hother g hg]
    · intro k
      rw [layers_write, hlayers]

end Field

/-- **Checking and storing agree**: a text is stored in a field exactly if the field's check calls
    it valid or not positive, and a text that is not stored changes nothing. A text that is
    stored is replaced by another spelling of its value, when it is shown again. That spelling
    gets the same verdict, and storing it changes nothing any more. All other fields and both
    layer lists are as before. The value of a valid text is in range. -/
theorem stored_as_validated (f : Field) (p : Profile) (text : String) :
    ((f.write? p text).isSome = true ↔
      f.validate text = .valid ∨ f.validate text = .invalid .notPositive) ∧
    (f.write? p text = none → f.write p text = p) ∧
    ∀ q, f.write? p text = some q →
      f.write p text = q ∧ f.Matches text q ∧ f.validate (f.read q) = f.validate text ∧
        f.write? q (f.read q) = some q ∧ (∀ g, g ≠ f → q.value g = p.value g) ∧
        (∀ k, q.layers k = p.layers k) ∧ (f.validate text = .valid → f.InRange q) := by
  refine ⟨?_, Field.write_of_eq_none, ?_⟩
  · rw [Field.isSome_write?]
    exact Field.reads_iff_validate
  · intro q hq
    obtain ⟨htext, hother, hlayers⟩ := Field.write?_eq_some_iff.1 hq
    have hmatches : f.Matches text q := Field.matches_iff_parse?.2 htext
    -- what is shown for the value stands for it, as the value is finite
    have hshown : f.parse? (f.read q) = some (q.value f) := by
      rw [Field.parse?_read, if_pos (Field.isFinite_of_parse? htext)]
    have hagain : f.write? q (f.read q) = some q :=
      Field.write?_eq_some_iff.2 ⟨hshown, fun _ _ => rfl, fun _ => rfl⟩
    exact ⟨Field.write_of_eq_some hq, hmatches, Field.validate_congr (hshown.trans htext.symm),
      hagain, hother, hlayers, (Field.validate_eq_valid_iff hmatches).1⟩

/-- A radius above zero that is rounded to zero: it is refused as not positive, but it is stored,
    and shown as a zero that is refused for the same reason. -/
theorem stored_as_validated_underflow :
    let radius : Field := .measure .punchRadius
    ∃ q, radius.write? .default " 1E-400\t" = some q ∧ radius.read q = "0" ∧
      radius.validate "0" = .invalid .notPositive ∧ radius.write? q "0" = some q ∧
      q.resolution = Profile.default.resolution := by
  intro radius
  obtain ⟨hstored, -, hresult⟩ := stored_as_validated radius .default " 1E-400\t"
  have hverdict : radius.validate " 1E-400\t" = .invalid .notPositive := by decide +kernel
  obtain ⟨q, hq⟩ := Option.isSome_iff_exists.1 (hstored.2 (.inr hverdict))
  obtain ⟨hwrite, -, hsame, hagain, hother, -, -⟩ := hresult q hq
  have hread : radius.read q = "0" := by
    rw [← hwrite]
    decide +kernel
  rw [hread] at hsame hagain
  exact ⟨q, hq, hread, hsame.trans hverdict, hagain,
    FieldValue.real.inj (hother (.measure .resolution) (by decide))⟩

end ChipSettings
