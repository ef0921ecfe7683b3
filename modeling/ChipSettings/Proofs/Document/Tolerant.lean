import ChipSettings.Codec
import ChipSettings.Proofs.Document.SettingsText
import ChipSettings.Proofs.Form.Fieldwise

/-! # The Tolerant Reader

  What a settings document in any spelling is read as.

  - `Part.Parses` and `Part.Holds`: the text of a part is a number of its field, and a profile
    has what the part holds.
  - `exists_store`, `holds_of_store` and `same_of_store`: when a part is stored, and what
    storing it does to its slot and to all others.
  - `Overrides`: a profile that is another one, except for what a list of parts holds. There is
    only one such profile (`Overrides.unique`), and the order of the parts does not matter.
  - `deserialize_render`: a document is read if no slot is filled twice and all numbers are
    numbers, and then it is the default profile with its parts in their places.
-/

namespace ChipSettings.Document

open Text Number Xml

/-! ## Slots of Profiles -/

/-- Two profiles are the same in a slot. -/
def Slot.Same (slot : Slot) (p q : Profile) : Prop :=
  match slot with
  | layers kind => p.layers kind = q.layers kind
  | number field => field.SameValue p q

namespace Slot

variable {slot : Slot} {p q r : Profile}

theorem Same.refl (slot : Slot) (p : Profile) : slot.Same p p := by
  cases slot with
  | layers kind => rfl
  | number field => exact Field.SameValue.refl field p

theorem Same.symm (h : slot.Same p q) : slot.Same q p := by
  cases slot with
  | layers kind => exact Eq.symm h
  | number field => exact Field.SameValue.symm h

theorem Same.trans (hpq : slot.Same p q) (hqr : slot.Same q r) : slot.Same p r := by
  cases slot with
  | layers kind => exact Eq.trans hpq hqr
  | number field => exact Field.SameValue.trans hpq hqr

/-- Profiles that are the same in all slots are equal. -/
theorem eq_of_same (h : ∀ slot : Slot, slot.Same p q) : p = q :=
  Profile.eq_of_sameValue (fun kind => h (.layers kind)) fun field => h (.number field)

/-- Replacing a layer list changes its slot only. -/
theorem same_setLayers {kind : LayerKind} (hne : slot ≠ .layers kind) (p : Profile)
    (names : List String) : slot.Same (p.setLayers kind names) p := by
  cases slot with
  | layers other =>
    cases kind <;> cases other <;> first | rfl | exact absurd rfl hne
  | number field => exact field.sameValue_setLayers p kind names

/-- So does replacing the bar count. -/
theorem same_setBars (hne : slot ≠ .number .punchBarNumber) (p : Profile) (n : Int32) :
    slot.Same { p with punchBarNumber := n } p := by
  cases slot with
  | layers kind => cases kind <;> rfl
  | number field => cases field with
    | punchBarNumber => exact absurd rfl hne
    | measure m => cases m <;> rfl

/-- So does replacing a measure. -/
theorem same_setReal {m : Measure} (hne : slot ≠ .number (.measure m)) (p : Profile)
    (x : Binary64) : slot.Same (p.setReal m x) p := by
  cases slot with
  | layers kind => exact p.layers_setReal m x kind
  | number field => cases field with
    | punchBarNumber => exact p.punchBarNumber_setReal m x
    | measure n => exact p.real_setReal_of_ne x fun h => hne (by rw [h])

end Slot

/-! ## What a Part Holds -/

namespace Part

/-- The text in the element of a number. -/
def numberText (element : Element NumberText) : List Char := element.value [] (·.run.chars)

/-- The text of a number is of the type of its field. -/
def Parses : Part → Prop
  | number .punchBarNumber element _ => ∃ n, readInt32? (numberText element) = some n
  | number (.measure _) element _ => ∃ x, Binary64.read? (numberText element) = some x
  | layers _ _ _ => True
  | unknown _ _ => True

/-- The profile has what the part holds. -/
def Holds (p : Profile) : Part → Prop
  | number .punchBarNumber element _ => readInt32? (numberText element) = some p.punchBarNumber
  | number (.measure m) element _ => Binary64.read? (numberText element) = some (p.real m)
  | layers kind element _ => p.layers kind = layerNames element
  | unknown _ _ => True

/-- What a number is read from: its text with the line ends normalized. -/
theorem trimBoth_value (element : Element NumberText) :
    trimBoth isMarkupSpace (element.value [] fun t => t.prose.value) =
      normalizeLineEnds (numberText element) := by
  cases element with
  | alone tag => rfl
  | around tag t gap => exact t.trimBoth_value

variable {part : Part} {slot : Slot} {p q : Profile}

/-- A part that is for no slot is an unknown element. -/
theorem eq_unknown (hslot : part.slot? = none) : ∃ element h, part = unknown element h := by
  cases part with
  | number field element h => cases hslot
  | layers kind element h => cases hslot
  | unknown element h => exact ⟨element, h, rfl⟩

/-- Storing a part succeeds if its text parses. -/
theorem exists_store (hparses : part.Parses) (p : Profile) : ∃ q, part.store p = .ok q := by
  cases part with
  | number field element h =>
    cases field with
    | punchBarNumber =>
      obtain ⟨n, hn⟩ := hparses
      simp only [store, readValue, trimBoth_value,
        read_normalizeLineEnds isNumeral_of_readInt32?, hn]
      exact ⟨_, rfl⟩
    | measure m =>
      obtain ⟨x, hx⟩ := hparses
      simp only [store, readValue, trimBoth_value, read_normalizeLineEnds isNumeral_of_read?, hx]
      exact ⟨_, rfl⟩
  | layers kind element h => exact ⟨_, rfl⟩
  | unknown element h => exact ⟨p, rfl⟩

/-- A text that some profile has the value of is a number. -/
theorem parses_of_holds (h : part.Holds p) : part.Parses := by
  cases part with
  | number field element hname =>
    cases field with
    | punchBarNumber => exact ⟨p.punchBarNumber, h⟩
    | measure m => exact ⟨p.real m, h⟩
  | layers kind element hname => trivial
  | unknown element hname => trivial

/-- What was stored is there. -/
theorem holds_of_store (hstore : part.store p = .ok q) : part.Holds q := by
  cases part with
  | number field element h =>
    cases field with
    | punchBarNumber =>
      simp only [store, readValue, trimBoth_value,
        read_normalizeLineEnds isNumeral_of_readInt32?] at hstore
      show readInt32? (numberText element) = some q.punchBarNumber
      cases hread : readInt32? (numberText element) with
      | none => rw [hread] at hstore; cases hstore
      | some n => rw [hread] at hstore; cases hstore; rfl
    | measure m =>
      simp only [store, readValue, trimBoth_value,
        read_normalizeLineEnds isNumeral_of_read?] at hstore
      show Binary64.read? (numberText element) = some (q.real m)
      cases hread : Binary64.read? (numberText element) with
      | none => rw [hread] at hstore; cases hstore
      | some x => rw [hread] at hstore; cases hstore; rw [Profile.real_setReal_self]
  | layers kind element h =>
    cases hstore
    exact Profile.layers_setLayers_self p kind _
  | unknown element h => trivial

/-- All other slots stay as they are. -/
theorem same_of_store (hstore : part.store p = .ok q) (hne : part.slot? ≠ some slot) :
    slot.Same q p := by
  cases part with
  | number field element h =>
    have hother : slot ≠ .number field := fun hslot => hne (by rw [hslot, slot?])
    cases field with
    | punchBarNumber =>
      simp only [store, readValue] at hstore
      split at hstore
      · cases hstore
        exact Slot.same_setBars hother p _
      · cases hstore
    | measure m =>
      simp only [store, readValue] at hstore
      split at hstore
      · cases hstore
        exact Slot.same_setReal hother p _
      · cases hstore
  | layers kind element h =>
    cases hstore
    exact Slot.same_setLayers (fun hslot => hne (by rw [hslot, slot?])) p _
  | unknown element h =>
    cases hstore
    exact .refl slot p

/-- Whether a profile has what a part holds shows in the slot of the part. -/
theorem holds_of_same (hslot : part.slot? = some slot) (hsame : slot.Same p q)
    (h : part.Holds p) : part.Holds q := by
  cases part with
  | number field element hname =>
    cases hslot
    cases field with
    | punchBarNumber => exact h.trans (congrArg some hsame)
    | measure m => exact h.trans (congrArg some hsame)
  | layers kind element hname =>
    cases hslot
    exact Eq.trans (Eq.symm hsame) h
  | unknown element hname => trivial

/-- A part fills its slot: there is only one way to have what it holds. -/
theorem same_of_holds (hslot : part.slot? = some slot) (hp : part.Holds p) (hq : part.Holds q) :
    slot.Same p q := by
  cases part with
  | number field element hname =>
    cases hslot
    cases field with
    | punchBarNumber => exact Option.some.inj (hp.symm.trans hq)
    | measure m => exact Option.some.inj (hp.symm.trans hq)
  | layers kind element hname =>
    cases hslot
    exact Eq.trans hp (Eq.symm hq)
  | unknown element hname => cases hslot

end Part

/-! ## Profiles With Parts in Their Places -/

/-- The slots that parts are for. -/
def slots (parts : List Part) : List Slot := parts.filterMap Part.slot?

/-- The profile has what the parts hold, and is as the other one in all slots that no part is
    for. -/
structure Overrides (parts : List Part) (p q : Profile) : Prop where
  holds : ∀ part ∈ parts, part.Holds q
  same : ∀ slot, slot ∉ slots parts → slot.Same q p

namespace Overrides

variable {parts parts' : List Part} {p q q' : Profile}

/-- There is only one such profile. -/
theorem unique (h : Overrides parts p q) (h' : Overrides parts p q') : q = q' := by
  apply Slot.eq_of_same
  intro slot
  by_cases hslot : slot ∈ slots parts
  · obtain ⟨part, hmem, hpart⟩ := List.mem_filterMap.1 hslot
    exact Part.same_of_holds hpart (h.holds part hmem) (h'.holds part hmem)
  · exact (h.same slot hslot).trans (h'.same slot hslot).symm

/-- All numbers of the parts are numbers. -/
theorem parses (h : Overrides parts p q) : ∀ part ∈ parts, part.Parses :=
  fun part hmem => Part.parses_of_holds (h.holds part hmem)

/-- The order of the parts does not matter. -/
theorem perm (hperm : parts.Perm parts') (h : Overrides parts p q) : Overrides parts' p q where
  holds part hmem := h.holds part (hperm.mem_iff.2 hmem)
  same slot hslot := h.same slot fun hmem => hslot ((hperm.filterMap _).mem_iff.1 hmem)

end Overrides

/-! ## Storing All Parts -/

/-- Parts that were all stored fill slots that differ from each other and from those filled
    before, and what they hold is in its place. -/
theorem storeParts_ok {seen : List Slot} {p q : Profile} {parts : List Part}
    (h : storeParts seen p parts = .ok q) :
    (slots parts).Nodup ∧ (∀ slot ∈ slots parts, slot ∉ seen) ∧ Overrides parts p q := by
  induction parts generalizing seen p with
  | nil =>
    cases h
    exact ⟨List.nodup_nil, fun _ hmem => absurd hmem List.not_mem_nil,
      fun _ hmem => absurd hmem List.not_mem_nil, fun slot _ => .refl slot q⟩
  | cons part parts ih =>
    unfold storeParts at h
    split at h
    · next hslot =>
      -- nothing is to be said about an unknown element
      have hslots : slots (part :: parts) = slots parts := List.filterMap_cons_none hslot
      obtain ⟨hnodup, hnew, hholds, hsame⟩ := ih h
      rw [hslots]
      obtain ⟨element, hname, rfl⟩ := Part.eq_unknown hslot
      exact ⟨hnodup, hnew, List.forall_mem_cons.2 ⟨trivial, hholds⟩, by rwa [hslots]⟩
    · next slot hslot =>
      have hslots : slots (part :: parts) = slot :: slots parts := List.filterMap_cons_some hslot
      split at h
      · cases h
      · next hseen =>
        obtain ⟨between, hstore, hrest⟩ := exists_of_bind_eq_ok h
        obtain ⟨hnodup, hnew, hholds, hsame⟩ := ih hrest
        have hfirst : slot ∉ slots parts := fun hmem => hnew slot hmem List.mem_cons_self
        rw [hslots]
        refine ⟨List.nodup_cons.2 ⟨hfirst, hnodup⟩, ?_, ?_, ?_⟩
        · refine List.forall_mem_cons.2 ⟨hseen, fun other hother hmem => ?_⟩
          exact hnew other hother (List.mem_cons_of_mem slot hmem)
        · -- what is stored later leaves the slot alone
          refine List.forall_mem_cons.2 ⟨?_, hholds⟩
          exact Part.holds_of_same hslot (hsame slot hfirst).symm (Part.holds_of_store hstore)
        · intro other hother
          rw [hslots] at hother
          obtain ⟨hne, hother⟩ := List.ne_and_not_mem_of_not_mem_cons hother
          refine (hsame other hother).trans (Part.same_of_store hstore fun heq => ?_)
          rw [hslot] at heq
          exact hne (Option.some.inj heq).symm

/-- Parts that fill different slots, none of them filled before, are all stored if their numbers
    parse. -/
theorem exists_storeParts {seen : List Slot} {parts : List Part} (hnodup : (slots parts).Nodup)
    (hnew : ∀ slot ∈ slots parts, slot ∉ seen) (hparses : ∀ part ∈ parts, part.Parses)
    (p : Profile) : ∃ q, storeParts seen p parts = .ok q := by
  induction parts generalizing seen p with
  | nil => exact ⟨p, rfl⟩
  | cons part parts ih =>
    obtain ⟨hpart, hparses⟩ := List.forall_mem_cons.1 hparses
    unfold storeParts
    split
    · next hslot =>
      have hslots : slots (part :: parts) = slots parts := List.filterMap_cons_none hslot
      rw [hslots] at hnodup hnew
      exact ih hnodup hnew hparses p
    · next slot hslot =>
      have hslots : slots (part :: parts) = slot :: slots parts := List.filterMap_cons_some hslot
      rw [hslots] at hnodup hnew
      obtain ⟨hfirst, hnodup⟩ := List.nodup_cons.1 hnodup
      obtain ⟨hseen, hnew⟩ := List.forall_mem_cons.1 hnew
      obtain ⟨between, hstore⟩ := Part.exists_store hpart p
      rw [if_neg hseen, hstore]
      refine ih hnodup (fun other hother hmem => ?_) hparses between
      rcases List.mem_cons.1 hmem with rfl | hmem
      · exact hfirst hother
      · exact hnew other hother hmem

/-! ## Reading Any Document -/

/-- A document is deserialized as its parts are stored in the default profile. -/
theorem deserialize_eq_ok_iff (d : SettingsText) (p : Profile) :
    Codec.xml.deserialize (String.ofList d.render) = .ok p ↔
      storeParts [] .default d.parts = .ok p := by
  have hread : Codec.xml.deserialize (String.ofList d.render) =
      (storeParts [] .default d.parts).mapError fun e => .deserialization e.message := by
    rw [← d.read_render]
    show (read (String.ofList d.render).toList).mapError _ = _
    rw [String.toList_ofList]
  rw [hread]
  constructor
  · exact eq_ok_of_mapError_eq_ok
  · intro h
    rw [h]
    rfl

/-- A document is read as the profile that has its parts in their places, if there is one. -/
theorem deserialize_of_overrides {d : SettingsText} {p : Profile} (hnodup : (slots d.parts).Nodup)
    (h : Overrides d.parts .default p) :
    Codec.xml.deserialize (String.ofList d.render) = .ok p := by
  obtain ⟨q, hq⟩ := exists_storeParts hnodup (fun _ _ => List.not_mem_nil) h.parses .default
  obtain ⟨-, -, hthere⟩ := storeParts_ok hq
  rw [deserialize_eq_ok_iff, hq, h.unique hthere]

/-- **Tolerant reader**: a settings document, in whatever order its parts come, with whatever
    blanks, comments and attributes, and with unknown elements of any content in between, is
    read if and only if no slot is filled twice and the text of every number is of its type. What
    is read is then the default profile with exactly the parts of the document in their places.
    In particular, documents with the same parts in any order are read as the same profile. -/
theorem deserialize_render (d : SettingsText) :
    ((∃ p, Codec.xml.deserialize (String.ofList d.render) = .ok p) ↔
      (slots d.parts).Nodup ∧ ∀ part ∈ d.parts, part.Parses) ∧
    (∀ p, Codec.xml.deserialize (String.ofList d.render) = .ok p →
      Overrides d.parts .default p) ∧
    ∀ d' : SettingsText, d'.parts.Perm d.parts → ∀ p,
      (Codec.xml.deserialize (String.ofList d'.render) = .ok p ↔
        Codec.xml.deserialize (String.ofList d.render) = .ok p) := by
  have hok (d : SettingsText) : (∃ p, storeParts [] .default d.parts = .ok p) ↔
      (slots d.parts).Nodup ∧ ∀ part ∈ d.parts, part.Parses := by
    constructor
    · rintro ⟨p, hp⟩
      obtain ⟨hnodup, -, hoverrides⟩ := storeParts_ok hp
      exact ⟨hnodup, hoverrides.parses⟩
    · rintro ⟨hnodup, hparses⟩
      exact exists_storeParts hnodup (fun _ _ => List.not_mem_nil) hparses .default
  -- one order of the parts is as good as any other
  have horder {d d' : SettingsText} (hperm : d'.parts.Perm d.parts) {p : Profile}
      (h : storeParts [] .default d'.parts = .ok p) : storeParts [] .default d.parts = .ok p := by
    obtain ⟨hnodup, -, hoverrides⟩ := storeParts_ok h
    have hhere := hoverrides.perm hperm
    obtain ⟨q, hq⟩ := (hok d).2 ⟨(hperm.filterMap _).nodup_iff.1 hnodup, hhere.parses⟩
    obtain ⟨-, -, hthere⟩ := storeParts_ok hq
    rw [hq, hhere.unique hthere]
  simp only [deserialize_eq_ok_iff]
  refine ⟨hok d, fun p hp => ?_, fun d' hperm p => ⟨horder hperm, horder hperm.symm⟩⟩
  obtain ⟨-, -, hoverrides⟩ := storeParts_ok hp
  exact hoverrides

/-! ## A Document With Parts Out of Order -/

/-- Blank prose of one run. -/
def lineGap (depth : Nat) : Gap where
  prose := .last ⟨'\n' :: indent depth, List.all_eq_true.2 fun _ hc =>
    isTextChar_of_isMarkupSpace (isMarkupSpace_of_mem_blank hc)⟩
  isBlank := all_blank depth

def linePart : Part :=
  .number (.measure .punchToLine) (.around (plainName_fieldName (.measure .punchToLine)).tagText
    ⟨⟨"2.5".toList, by decide⟩, by decide, by decide⟩ .none) (by decide)

def barsPart : Part :=
  .number .punchBarNumber (.around (plainName_fieldName .punchBarNumber).tagText
    ⟨⟨"+5".toList, by decide⟩, by decide, by decide⟩ .none) (by decide)

/-- Two names: one with a reference in it, and the empty one. -/
def flowPart : Part :=
  .layers .flow (.around (plainName_elementName .flow).tagText
    (.next (lineGap 2) ⟨.around plainName_itemName.tagText
      (.next ⟨"A ".toList, by decide⟩ (.reference "amp".toList '&' rfl)
        (.last ⟨" B".toList, by decide⟩)) .none, by decide⟩
    (.next (lineGap 2) ⟨.alone plainName_itemName.tagText, by decide⟩
    (.last (lineGap 1)))) .none) (by decide)

/-- An element that the reader does not know, with one inside that it knows elsewhere. -/
def futurePart : Part :=
  .unknown (.around (show PlainName "Future".toList by decide).tagText
    (.element .empty (plainName_fieldName (.measure .punchRadius)).tagText
      (.last (.last ⟨"9".toList, by decide⟩)) .none (.last .empty)) .none)
    (ne_name_of_ofName? (by decide))

/-- The declaration of a namespace that the plug-in writes into its root tag. -/
def schemaAttribute : AttributeText where
  gap := ⟨[' '], by decide⟩
  gap_ne_nil := by decide
  key := ⟨"xmlns:xsi".toList, by decide, by decide⟩
  beforeEquals := .none
  afterEquals := .none
  quote := '"'
  isQuote := .inl rfl
  value := "http://www.w3.org/2001/XMLSchema-instance".toList
  quote_not_mem := by decide

theorem respectsReserved_schemaAttribute : schemaAttribute.RespectsReserved := by
  intro bound hbound
  obtain rfl : "xsi".toList = bound := List.append_cancel_left
    (show ['x', 'm', 'l', 'n', 's', ':'] ++ "xsi".toList = _ from hbound)
  decide

theorem not_inside_comment : ¬ ['-', '-', '>'] <:+: " settings ".toList := fun h =>
  absurd (h.subset (show '>' ∈ ['-', '-', '>'] by decide)) (by decide)

/-- A document of these parts. -/
def documentOf (parts : Separated Part) : SettingsText where
  marked := false
  prolog := .last ⟨.next .empty (.comment " settings ".toList
    not_inside_comment) (lineGap 0).prose, rfl⟩
  root := .around
    { name := plainName_rootName.tagText.name
      attributes := [schemaAttribute]
      gap := .none
      nodup_keys := List.pairwise_singleton _ _
      respectsReserved := fun _ ha =>
        List.mem_singleton.1 ha ▸ respectsReserved_schemaAttribute } parts .none
  isRoot := by
    show localPart rootName.toList = rootName.toList
    decide
  rest := []

def shuffledDocument : SettingsText :=
  documentOf <| .next (lineGap 1) linePart <| .next (lineGap 1) futurePart <|
    .next (lineGap 1) flowPart <| .next (lineGap 1) barsPart <| .last (lineGap 0)

def reshuffledDocument : SettingsText :=
  documentOf <| .next (lineGap 1) flowPart <| .next (lineGap 1) barsPart <|
    .next (lineGap 1) linePart <| .next (lineGap 1) futurePart <| .last (lineGap 0)

/-- A profile with what the parts hold in its place. -/
def shuffledProfile (p : Profile) : Profile :=
  { p with
    flowLayers := ["A & B", ""]
    punchBarNumber := 5
    punchToLine := Profile.constant 25 1 }

theorem overrides_shuffledProfile (p : Profile) :
    Overrides shuffledDocument.parts p (shuffledProfile p) where
  holds := by
    have hread : Binary64.read? "2.5".toList = some (Profile.constant 25 1) := by decide +kernel
    have hline : linePart.Holds (shuffledProfile p) := by
      show Binary64.read? "2.5".toList = some ((shuffledProfile p).real .punchToLine)
      rw [hread]
      simp only [shuffledProfile, Profile.real]
    have hbars : readInt32? "+5".toList = some 5 := by decide
    have hflow : (shuffledProfile p).layers .flow = ["A & B", ""] := rfl
    show ∀ part ∈ [linePart, futurePart, flowPart, barsPart], part.Holds (shuffledProfile p)
    simp only [List.forall_mem_cons]
    exact ⟨hline, trivial, hflow, hbars, fun _ h => absurd h List.not_mem_nil⟩
  same := by
    intro slot hslot
    have hslots : slots shuffledDocument.parts =
        [.number (.measure .punchToLine), .layers .flow, .number .punchBarNumber] := rfl
    rw [hslots] at hslot
    cases slot with
    | layers kind => cases kind with
      | flow => exact absurd hslot (by decide)
      | control => rfl
    | number field => cases field with
      | punchBarNumber => exact absurd hslot (by decide)
      | measure m => cases m with
        | punchToLine => exact absurd hslot (by decide)
        | _ => rfl

set_option maxRecDepth 4000 in
/-- A comment, attributes, an unknown element, and parts out of order: the text is read, and so
    is the text with the parts in another order. -/
theorem deserialize_render_shuffled :
    Codec.xml.deserialize "<!-- settings -->
<Settings xmlns:xsi=\"http://www.w3.org/2001/XMLSchema-instance\">
  <Punch2Line>2.5</Punch2Line>
  <Future><PunchRadius>9</PunchRadius></Future>
  <FlowLayers>
    <string>A &amp; B</string>
    <string/>
  </FlowLayers>
  <PunchBarNumber>+5</PunchBarNumber>
</Settings>" = .ok (shuffledProfile .default) ∧
    reshuffledDocument.parts.Perm shuffledDocument.parts ∧
    Codec.xml.deserialize (String.ofList reshuffledDocument.render) =
      .ok (shuffledProfile .default) := by
  obtain ⟨hok, hresult, horder⟩ := deserialize_render shuffledDocument
  obtain ⟨p, hp⟩ := hok.2 ⟨by decide, (overrides_shuffledProfile .default).parses⟩
  rw [(hresult p hp).unique (overrides_shuffledProfile .default)] at hp
  have hperm : reshuffledDocument.parts.Perm shuffledDocument.parts := by
    show ([flowPart, barsPart] ++ [linePart, futurePart]).Perm
      ([linePart, futurePart] ++ [flowPart, barsPart])
    exact List.perm_append_comm
  exact ⟨hp, hperm, (horder _ hperm _).2 hp⟩

end ChipSettings.Document
