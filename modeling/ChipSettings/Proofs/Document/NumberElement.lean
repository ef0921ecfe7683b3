import ChipSettings.Proofs.Document.Tolerant
import ChipSettings.Proofs.Form.Storing
import ChipSettings.Proofs.Number.Spelling

/-! # Numbers in Files and in the Form

  A number is read from the element of a document, and it is read from a text that the user
  types. Blanks apart, the two accept the same texts, and make the same profile of them. Only
  infinities and what is no number at all may stand in a file and nowhere else.

  - `IsBare`: a text that can stand in an element as it is.
  - `ofNumber`: the document of one number. `deserialize_ofNumber_iff`: what it is read as.
  - `write?_iff_deserialize`: the form stores a text exactly if the document of it is read and the
    number is finite.
-/

namespace ChipSettings.Document

open Text Number Xml

/-! ## Bare Texts -/

/-- A text without markup, and without white space around it. -/
structure IsBare (text : String) : Prop where
  ne_markup : ∀ c ∈ text.toList, c ≠ '<' ∧ c ≠ '&'
  isBlank_head : ∀ c ∈ text.toList.head?, isBlank c = false
  isBlank_last : ∀ c ∈ text.toList.getLast?, isBlank c = false

/-- What is white in a document is a Unicode blank. -/
theorem isBlank_of_isWhite {c : Char} (h : isWhite c = true) : isBlank c = true := by
  rw [isWhite, Bool.or_eq_true] at h
  rcases h with hspace | hforeign
  · exact isBlank_of_isMarkupSpace hspace
  · simp only [isForeignLineEnd, Bool.or_eq_true, beq_iff_eq] at hforeign
    rcases hforeign with (rfl | rfl) | rfl
    · decide
    · decide
    · decide

/-- What may be nothing but a character that is not blank is not white. -/
theorem any_isWhite {c? : Option Char} (h : ∀ c ∈ c?, isBlank c = false) :
    c?.any isWhite = false := by
  cases c? with
  | none => rfl
  | some c =>
    rw [Option.any_some, Bool.eq_false_iff]
    intro hwhite
    have hblank := h c rfl
    rw [isBlank_of_isWhite hwhite] at hblank
    cases hblank

variable {f : Field} {text : String} {p : Profile}

namespace IsBare

/-- The form has nothing to trim. -/
theorem trimBoth_eq (h : IsBare text) : trimBoth isBlank text.toList = text.toList :=
  trimBoth_of_ends h.isBlank_head h.isBlank_last

/-- The text in the element of a number. -/
def numberText (h : IsBare text) : NumberText where
  run := ⟨text.toList, List.all_eq_true.2 fun c hc => by
    obtain ⟨hopen, hreference⟩ := h.ne_markup c hc
    simp [isTextChar, hopen, hreference]⟩
  isWhite_head := any_isWhite h.isBlank_head
  isWhite_last := any_isWhite h.isBlank_last

/-- The element of a field with the text in it. -/
def part (h : IsBare text) (f : Field) : Part :=
  .number f (.around (plainName_fieldName f).tagText h.numberText .none)
    (plainName_fieldName f).localName_tagText

/-- The text is a number of the field that is finite, if the form reads it as one. -/
theorem holds_part_iff (h : IsBare text) :
    (h.part f).Holds p ∧ (p.value f).isFinite = true ↔ f.parse? text = some (p.value f) := by
  rw [← Field.matches_iff_parse?]
  cases f with
  | punchBarNumber =>
    show readInt32? text.toList = some p.punchBarNumber ∧ true = true ↔
      readInt32? (trimBoth isBlank text.toList) = some p.punchBarNumber
    rw [h.trimBoth_eq, and_iff_left rfl]
  | measure m =>
    show Binary64.read? text.toList = some (p.real m) ∧ (p.real m).isFinite = true ↔
      readNumber text = some (p.real m)
    rw [readNumber, h.trimBoth_eq, Option.filter_eq_some_iff]

/-- The text is a number of the field, but none that the form reads, if it is not finite. -/
theorem parses_part_iff (h : IsBare text) :
    (h.part f).Parses ∧ f.parse? text = none ↔ (∃ m, f = .measure m) ∧
      ∃ x, Binary64.read? text.toList = some x ∧ x.isFinite = false := by
  cases f with
  | punchBarNumber =>
    -- every count is finite
    refine iff_of_false ?_ ?_
    · rintro ⟨⟨n, hread⟩, hnone⟩
      have hread : readInt32? text.toList = some n := hread
      rw [Field.parse?, readInteger, h.trimBoth_eq, hread] at hnone
      cases hnone
    · rintro ⟨⟨m, hm⟩, -⟩
      cases hm
  | measure m =>
    have hparses : (h.part (.measure m)).Parses ↔ ∃ x, Binary64.read? text.toList = some x :=
      Iff.rfl
    rw [hparses, Field.parse?, Option.map_eq_none_iff, readNumber, h.trimBoth_eq]
    constructor
    · rintro ⟨⟨x, hread⟩, hnone⟩
      rw [hread] at hnone
      exact ⟨⟨m, rfl⟩, x, hread, Bool.eq_false_iff.2 (by simpa using hnone)⟩
    · rintro ⟨-, x, hread, hfinite⟩
      rw [hread]
      exact ⟨⟨x, rfl⟩, by simp [hfinite]⟩

end IsBare

/-! ## The Document of One Number -/

/-- The document of one number, and of nothing else. -/
def ofNumber (f : Field) (text : String) : String :=
  "<Settings><" ++ f.name ++ ">" ++ text ++ "</" ++ f.name ++ "></Settings>"

/-- Such a document by its parts. -/
def numberDocument (f : Field) (h : IsBare text) : SettingsText where
  marked := false
  prolog := .last .empty
  root := .around plainName_rootName.tagText (.next .empty (h.part f) (.last .empty)) .none
  isRoot := rfl
  rest := []

theorem render_numberDocument (f : Field) (h : IsBare text) :
    String.ofList (numberDocument f h).render = ofNumber f text := by
  apply String.toList_injective
  rw [String.toList_ofList]
  simp [SettingsText.render, numberDocument, Element.render, TagText.renderAround_tagText,
    Separated.render, Gap.empty, Prose.render, Prose.empty, Run.empty, Part.render,
    NumberText.prose, IsBare.part, IsBare.numberText, ofNumber, rootName]

/-- The document is read as the defaults with the number in the place of the field's. -/
theorem deserialize_ofNumber_iff (h : IsBare text) :
    Codec.xml.deserialize (ofNumber f text) = .ok p ↔ (h.part f).Holds p ∧
      (∀ g, g ≠ f → p.value g = Profile.default.value g) ∧
      ∀ k, p.layers k = Profile.default.layers k := by
  rw [← render_numberDocument f h]
  have hslots : slots (numberDocument f h).parts = [.number f] := rfl
  constructor
  · intro hread
    obtain ⟨-, hoverrides, -⟩ := deserialize_render (numberDocument f h)
    obtain ⟨hholds, hsame⟩ := hoverrides p hread
    refine ⟨hholds _ List.mem_cons_self, fun g hne => ?_, fun k => ?_⟩
    · have hother : Slot.number g ∉ slots (numberDocument f h).parts := by simp [hslots, hne]
      exact Profile.sameValue_iff.1 (hsame (.number g) hother)
    · exact hsame (.layers k) (by simp [hslots])
  · rintro ⟨hholds, hvalues, hlayers⟩
    refine deserialize_of_overrides (List.nodup_singleton _) ⟨fun part hpart => ?_, ?_⟩
    · rw [List.mem_singleton.1 hpart]
      exact hholds
    · intro slot hslot
      cases slot with
      | layers k => exact hlayers k
      | number g => exact Profile.sameValue_iff.2 (hvalues g fun hg => hslot (by simp [hslots, hg]))

/-- The document is read if the text in it is a number. -/
theorem exists_deserialize_ofNumber_iff (h : IsBare text) :
    (∃ p, Codec.xml.deserialize (ofNumber f text) = .ok p) ↔ (h.part f).Parses := by
  rw [← render_numberDocument f h, (deserialize_render (numberDocument f h)).1]
  constructor
  · rintro ⟨-, hparses⟩
    exact hparses _ List.mem_cons_self
  · intro hparses
    refine ⟨List.nodup_singleton _, fun part hpart => ?_⟩
    rw [List.mem_singleton.1 hpart]
    exact hparses

/-- **Files and the form read numbers alike**: a text without markup in it and without white
    space around it is stored in the defaults by the form exactly if the document that has the
    text in the element of the field is read, and the number in it is finite. The two make the
    same profile of it. So what a file may hold and the form refuses is a word for an infinity or
    for no number at all, or a numeral that is rounded to an infinity. -/
theorem write?_iff_deserialize (f : Field) (text : String) (h : IsBare text) :
    (∀ p, f.write? .default text = some p ↔
      Codec.xml.deserialize (ofNumber f text) = .ok p ∧ (p.value f).isFinite = true) ∧
    ((∃ p, Codec.xml.deserialize (ofNumber f text) = .ok p) ∧ f.write? .default text = none ↔
      (∃ m, f = .measure m) ∧
        (IsWord text.toList ∨ ∃ v, Denotes text.toList v ∧ overflowLimit ≤ |v|)) := by
  constructor
  · -- both put the value of the text in the place of the field's, and leave the other parts
    intro p
    rw [Field.write?_eq_some_iff, deserialize_ofNumber_iff h, ← h.holds_part_iff]
    tauto
  · rw [exists_deserialize_ofNumber_iff h, Field.write?_eq_none_iff, h.parses_part_iff,
      Binary64.read?_not_finite_iff]

/-- A radius of five that is spelled in an unusual way, and one that is rounded to an infinity:
    both may stand in a file, but the form refuses the second. -/
theorem write?_iff_deserialize_radius :
    let radius : Field := .measure .punchRadius
    (∃ p, Codec.xml.deserialize "<Settings><PunchRadius>+.5e1</PunchRadius></Settings>" = .ok p ∧
      radius.write? .default "+.5e1" = some p ∧ radius.read p = "5") ∧
    (∃ p, Codec.xml.deserialize "<Settings><PunchRadius>-1e400</PunchRadius></Settings>" = .ok p) ∧
    radius.write? .default "-1e400" = none := by
  intro radius
  have hfive : IsBare "+.5e1" := ⟨by simp, by simp [isBlank], by simp [isBlank]⟩
  have hhuge : IsBare "-1e400" := ⟨by simp, by simp [isBlank], by simp [isBlank]⟩
  obtain ⟨hstored, -⟩ := write?_iff_deserialize radius "+.5e1" hfive
  obtain ⟨-, hrefused⟩ := write?_iff_deserialize radius "-1e400" hhuge
  constructor
  · have hreads : radius.reads "+.5e1" = true := by decide +kernel
    have hwrite := Field.write?_of_reads (p := .default) hreads
    exact ⟨_, ((hstored _).1 hwrite).1, hwrite, by decide +kernel⟩
  · refine hrefused.2 ⟨⟨.punchRadius, rfl⟩, .inr ?_⟩
    let exponent : ExponentSpelling := ⟨'e', .absent, "400".toList, .inl rfl, by decide⟩
    let numeral : DecimalSpelling :=
      ⟨.minus, ['1'], none, some exponent, (isDigits_iff.1 (by decide)).2,
        fun _ hc => absurd hc List.not_mem_nil, by decide⟩
    refine ⟨numeral.value, ⟨numeral, rfl, rfl⟩, ?_⟩
    have hone : digitsValue ['1'] = 1 := by decide
    have hzero : digitsValue [] = 0 := rfl
    have hpower : exponentValue (some exponent) = 400 := by decide
    have hmagnitude : numeral.magnitude = 10 ^ (400 : ℤ) := by
      rw [← hpower]
      simp [DecimalSpelling.magnitude, numeral, hone, hzero]
    rw [numeral.abs_value, hmagnitude]
    exact overflowLimit_le.trans (zpow_le_zpow_right₀ (by norm_num) (by norm_num))

end ChipSettings.Document
