import ChipSettings.Proofs.Document.Reading
import ChipSettings.Proofs.Number.Accepted
import ChipSettings.Proofs.Xml.Elements

/-! # Parts of a Settings Document

  The children of the document element as anybody may spell them: numbers, layer lists, and
  elements that the reader does not know.

  - `Part`: a child, with what its kind may hold. Any attributes may stand in its tag.
  - `readText_inside` and `readNames_inside`: an element that holds a text is read as what the
    text stands for, a layer list as its names.
  - `readSlots_parts`: what the reader does with a list of parts is what `storeParts` does with
    it. The blanks between them, the attributes and all that unknown elements hold are gone.
-/

namespace ChipSettings.Document

open Text Number Xml

/-! ## Numbers -/

/-- White space of a document: the blanks of the markup and all line ends. -/
def isWhite (c : Char) : Bool := isMarkupSpace c || isForeignLineEnd c

theorem isWhite_eq_false_iff {c : Char} :
    isWhite c = false ↔ isMarkupSpace c = false ∧ isForeignLineEnd c = false := by
  simp [isWhite]

/-- A character at the end of a text that is not white stays as it is: it is no line end, and no
    second half of one either. -/
theorem normalizeLineEnds_concat {d : Char} (h : isWhite d = false) (ds : List Char) :
    normalizeLineEnds (ds ++ [d]) = normalizeLineEnds ds ++ [d] := by
  obtain ⟨hspace, hforeign⟩ := isWhite_eq_false_iff.1 h
  have hsecond : ∀ c ∈ [d].head?, c ≠ '\n' ∧ c ≠ '\u0085' := by
    intro c hc
    cases hc
    constructor
    · rintro rfl
      exact absurd hspace (by decide)
    · rintro rfl
      exact absurd hforeign (by decide)
  rw [normalizeLineEnds_append hsecond, normalizeLineEnds_cons hforeign]
  rfl

/-- A text free of markup and of white space around it. -/
structure NumberText where
  run : Run
  isWhite_head : run.chars.head?.any isWhite = false
  isWhite_last : run.chars.getLast?.any isWhite = false

namespace NumberText

def prose (t : NumberText) : Prose := .last t.run

variable (t : NumberText)

/-- No blank stands at either end of the text when its line ends are normalized. -/
theorem trimBoth_value : trimBoth isMarkupSpace t.run.value = t.run.value := by
  have hhead := t.isWhite_head
  have hlast := t.isWhite_last
  unfold Run.value
  refine trimBoth_of_ends (fun c hc => ?_) (fun c hc => ?_)
  · cases hchars : t.run.chars with
    | nil =>
      rw [hchars] at hc
      cases hc
    | cons d ds =>
      rw [hchars] at hc hhead
      obtain ⟨hspace, hforeign⟩ := isWhite_eq_false_iff.1 (show isWhite d = false from hhead)
      rw [normalizeLineEnds_cons hforeign] at hc
      cases hc
      exact hspace
  · rcases List.eq_nil_or_concat t.run.chars with hchars | ⟨ds, d, hchars⟩
    · rw [hchars] at hc
      cases hc
    · rw [hchars, List.concat_eq_append] at hc hlast
      rw [List.getLast?_concat] at hlast
      have hd : isWhite d = false := hlast
      rw [normalizeLineEnds_concat hd, List.getLast?_concat] at hc
      cases hc
      exact (isWhite_eq_false_iff.1 hd).1

end NumberText

/-- A text with a line end in it is no number, and any other text is normal already. So
    whoever reads a number may as well read the text with its line ends normalized. -/
theorem read_normalizeLineEnds {α : Type} {read? : List Char → Option α}
    (h : ∀ {cs a}, read? cs = some a → IsNumeral cs) (cs : List Char) :
    read? (normalizeLineEnds cs) = read? cs := by
  by_cases hnormal : ∀ c ∈ cs, isForeignLineEnd c = false
  · rw [normalizeLineEnds_eq_self hnormal]
  · obtain ⟨c, hc, hend⟩ : ∃ c ∈ cs, isForeignLineEnd c = true := by simpa using hnormal
    have hforeign : ¬ IsNumeral cs := by
      intro hnumeral
      have hc := hnumeral c hc
      simp only [isForeignLineEnd, Bool.or_eq_true, beq_iff_eq] at hend
      rcases hend with (rfl | rfl) | rfl
      · exact absurd hc (by decide)
      · exact absurd hc (by decide)
      · exact absurd hc (by decide)
    have hfeed : ¬ IsNumeral (normalizeLineEnds cs) := fun hnumeral =>
      absurd (hnumeral '\n' (lineFeed_mem_normalizeLineEnds hc hend)) (by decide)
    rw [Option.eq_none_iff_forall_ne_some.2 fun a ha => hforeign (h ha),
      Option.eq_none_iff_forall_ne_some.2 fun a ha => hfeed (h ha)]

/-! ## Texts of Elements -/

/-- An element that holds a text is read as what the text stands for. -/
theorem readText_inside {α : Type} (prose : α → Prose) (e : Element α) (ending : Ending)
    (name closing : List Char) (more : List Token) :
    readText ending name (events (e.insideTokens (fun a => (prose a).tokens) ++
        .endTag closing :: more)) =
      .ok (e.value [] fun a => (prose a).value, events more) := by
  cases e with
  | alone tag => rfl
  | around tag a gap =>
    -- one text or none, and then the end of the element
    have hend : startsWithText (events (.endTag closing :: more)) = false := rfl
    rcases (prose a).padded_events hend with hevents | ⟨hevents, hvalue⟩
    · show readText ending name (events ((prose a).tokens ++ _)) = _
      rw [hevents]
      rfl
    · show readText ending name (events ((prose a).tokens ++ _)) = .ok ((prose a).value, _)
      rw [hevents, hvalue]
      rfl

/-! ## Layer Names -/

/-- An element that holds a layer name. -/
structure ItemText where
  element : Element Prose
  isItem : element.tag.name.chars = itemName.toList

namespace ItemText

def render (t : ItemText) : List Char := t.element.render Prose.render

def tokens (t : ItemText) : List Token := t.element.tokens Prose.tokens

/-- The layer name. -/
def name (t : ItemText) : String := String.ofList (t.element.value [] Prose.value)

variable (t : ItemText)

theorem scan_item (rest : List Char) : scan (t.render ++ rest) = emit t.tokens (scan rest) :=
  t.element.scan_element (fun prose _ => prose.scan_prose (by simp [isTextChar])) rest

theorem wellNested_tokens : WellNested t.tokens :=
  t.element.wellNested_tokens Prose.wellNested_tokens

end ItemText

/-- A gap in front of something is passed over by the reader of a layer list. -/
theorem readNames_gap (gap : Gap) {ts : List Token}
    (hts : startsWithText (events ts) = false) (ending : Ending)
    (owner : List Char) (progress : Progress) :
    readNames ending owner progress (events (gap.prose.tokens ++ ts)) =
      readNames ending owner progress (events ts) := by
  rcases gap.prose.padded_events hts with hevents | ⟨hevents, -⟩
  · rw [hevents, readNames_of_text rfl,
      afterText_of_blank progress (gap.prose.isMarkupSpace_of_mem_value gap.isBlank)]
  · rw [hevents]

/-- The names of a layer list are read, in their order and up to its end. -/
theorem readNames_items (items : Separated ItemText) (ending : Ending) (owner closing : List Char)
    (more : List Token) {progress : Progress}
    (h : progress = .before ∨ progress = .within itemName.toList) :
    readNames ending owner progress (events (items.tokens ItemText.tokens ++
        .endTag closing :: more)) =
      .ok (items.list.map ItemText.name, events more) := by
  induction items generalizing progress with
  | last gap =>
    show readNames ending owner progress (events (gap.prose.tokens ++ .endTag closing :: more)) = _
    rw [readNames_gap gap rfl]
    exact readNames_of_finish rfl
  | next gap item rest ih =>
    -- the gap, the item, and then the other items, which are of the same run
    have hname : item.element.tag.tag.name = itemName.toList := by
      rw [item.element.tag.name_tag, item.isItem]
    have hitem := item.element.events_tokens Prose.tokens
      (rest.tokens ItemText.tokens ++ .endTag closing :: more)
    rw [Separated.tokens, List.append_assoc, List.append_assoc,
      readNames_gap gap (by rw [ItemText.tokens, hitem]; rfl), ItemText.tokens, hitem,
      readNames_of_item (deliver_tag _ _ _ _) (role_item h hname)
        (readText_inside (fun prose => prose) item.element ending _ _ _), hname, ih (.inr rfl)]
    rfl

/-- The names in the element of a layer list. -/
def layerNames (element : Element (Separated ItemText)) : List String :=
  element.value [] fun items => items.list.map ItemText.name

/-- A layer list is read as its names. -/
theorem readNames_inside (e : Element (Separated ItemText)) (ending : Ending)
    (owner closing : List Char) (more : List Token) :
    readNames ending owner .before (events (e.insideTokens (Separated.tokens ItemText.tokens) ++
        .endTag closing :: more)) =
      .ok (layerNames e, events more) := by
  cases e with
  | alone tag => exact readNames_of_finish rfl
  | around tag items gap => exact readNames_items items ending owner closing more (.inl rfl)

/-! ## Parts -/

/-- A child of the document element. -/
inductive Part where
  /-- The element of a numeric field. -/
  | number (field : Field) (element : Element NumberText)
    (h : element.tag.localName = field.name.toList)
  /-- The element of a layer list. -/
  | layers (kind : LayerKind) (element : Element (Separated ItemText))
    (h : element.tag.localName = kind.elementName.toList)
  /-- An element of another name, whatever it holds. -/
  | unknown (element : Element Content)
    (h : ∀ slot : Slot, element.tag.localName ≠ slot.name.toList)

namespace Part

/-- The part as it is spelled. -/
def render : Part → List Char
  | number _ element _ => element.render fun t => t.prose.render
  | layers _ element _ => element.render (Separated.render ItemText.render)
  | unknown element _ => element.render Content.render

def tokens : Part → List Token
  | number _ element _ => element.tokens fun t => t.prose.tokens
  | layers _ element _ => element.tokens (Separated.tokens ItemText.tokens)
  | unknown element _ => element.tokens Content.tokens

/-- The slot that the part is for. -/
def slot? : Part → Option Slot
  | number field _ _ => some (.number field)
  | layers kind _ _ => some (.layers kind)
  | unknown _ _ => none

/-- Put what the part holds into a profile. -/
def store (p : Profile) : Part → Except XmlError Profile
  | number field element _ => readValue field p (element.value [] fun t => t.prose.value)
  | layers kind element _ => .ok (p.setLayers kind (layerNames element))
  | unknown _ _ => .ok p

variable (part : Part)

theorem isTextChar_head?_render (rest : List Char) :
    ∀ c ∈ (part.render ++ rest).head?, isTextChar c = false := by
  cases part with
  | number field element h => exact element.isTextChar_head?_render _ rest
  | layers kind element h => exact element.isTextChar_head?_render _ rest
  | unknown element h => exact element.isTextChar_head?_render _ rest

/-- A part gives its tokens. -/
theorem scan_part (rest : List Char) :
    scan (part.render ++ rest) = emit part.tokens (scan rest) := by
  cases part with
  | number field element h =>
    exact element.scan_element (fun t _ => t.prose.scan_prose (by simp [isTextChar])) rest
  | layers kind element h =>
    refine element.scan_element (fun items _ => ?_) rest
    exact items.scan_separated ItemText.scan_item
      (fun item _ => item.element.isTextChar_head?_render _ _) (by simp [isTextChar])
  | unknown element h =>
    exact element.scan_element (fun content _ => content.scan_content (by simp [isTextChar])) rest

theorem wellNested_tokens : WellNested part.tokens := by
  cases part with
  | number field element h => exact element.wellNested_tokens fun t => t.prose.wellNested_tokens
  | layers kind element h =>
    exact element.wellNested_tokens fun items =>
      items.wellNested_tokens ItemText.wellNested_tokens
  | unknown element h => exact element.wellNested_tokens Content.wellNested_tokens

end Part

/-- Put the parts into a profile, one after the other. `seen` holds the slots filled before. -/
def storeParts (seen : List Slot) (p : Profile) : List Part → Except XmlError Profile
  | [] => .ok p
  | part :: parts => match part.slot? with
    | none => storeParts seen p parts
    | some slot =>
      if slot ∈ seen then .error (.duplicateElement slot.name)
      else (part.store p).bind fun q => storeParts (slot :: seen) q parts

/-! ## Reading Parts -/

/-- No slot has a name that none of them has. -/
theorem ofName?_eq_none {name : List Char} (h : ∀ slot : Slot, name ≠ slot.name.toList) :
    Slot.ofName? name = none :=
  List.find?_eq_none.2 fun slot _ => by simpa using (h slot).symm

/-- A name that no slot is found by is the name of none. -/
theorem ne_name_of_ofName? {name : List Char} (h : Slot.ofName? name = none) (slot : Slot) :
    name ≠ slot.name.toList := by
  rintro rfl
  rw [ofName?_name] at h
  cases h

section

variable {ending : Ending} {owner : List Char} {seen : List Slot} {p : Profile}

/-- The reader of the document element passes over the text between two elements. -/
theorem readSlots_prose (prose : Prose) {ts : List Token}
    (hts : startsWithText (events ts) = false) :
    readSlots ending owner seen p (events (prose.tokens ++ ts)) =
      readSlots ending owner seen p (events ts) := by
  rcases prose.padded_events hts with hevents | ⟨hevents, -⟩
  · rw [hevents, readSlots_of_text rfl]
  · rw [hevents]

/-- The reader of the document element at an element. -/
theorem readSlots_element {α : Type} (e : Element α) (ts : α → List Token) (more : List Token) :
    readSlots ending owner seen p (events (e.tokens ts ++ more)) =
      match Slot.ofName? e.tag.localName with
      | none => (skip ending e.tag.name.chars
          (events (e.insideTokens ts ++ .endTag e.tag.name.chars :: more))).bind
            (readSlots ending owner seen p)
      | some slot =>
        if slot ∈ seen then .error (.duplicateElement slot.name)
        else (readSlot ending slot e.tag.tag p
          (events (e.insideTokens ts ++ .endTag e.tag.name.chars :: more))).bind
            fun (q, rest) => readSlots ending owner (slot :: seen) q rest := by
  rw [e.events_tokens, readSlots_eq, deliver_tag, ← e.tag.localName_tag, ← e.tag.name_tag]
  rfl

/-- The reader of the document element at a part: the part is put into its slot. -/
theorem readSlots_part (part : Part) (more : List Token) :
    readSlots ending owner seen p (events (part.tokens ++ more)) =
      match part.slot? with
      | none => readSlots ending owner seen p (events more)
      | some slot =>
        if slot ∈ seen then .error (.duplicateElement slot.name)
        else (part.store p).bind fun q =>
          readSlots ending owner (slot :: seen) q (events more) := by
  cases part with
  | number field element h =>
    have hslot : Slot.ofName? element.tag.localName = some (.number field) :=
      h ▸ ofName?_name (.number field)
    refine (readSlots_element element _ more).trans ?_
    simp only [hslot, Part.slot?, readSlot, readText_inside NumberText.prose, Part.store]
    -- the text is read before its number is, but a slot that was filled is refused before both
    by_cases hseen : .number field ∈ seen
    · rw [if_pos hseen, if_pos hseen]
    · rw [if_neg hseen, if_neg hseen]
      show ((readValue field p _).bind _).bind _ = (readValue field p _).bind _
      cases readValue field p (element.value [] fun t => t.prose.value) with
      | error e => rfl
      | ok q => rfl
  | layers kind element h =>
    have hslot : Slot.ofName? element.tag.localName = some (.layers kind) :=
      h ▸ ofName?_name (.layers kind)
    refine (readSlots_element element _ more).trans ?_
    simp only [hslot, Part.slot?, readSlot, element.tag.checkAttributes_tag, readNames_inside,
      Part.store]
    rfl
  | unknown element h =>
    -- whatever the element holds is passed over, elements with the name of a slot included
    refine (readSlots_element element _ more).trans ?_
    simp only [ofName?_eq_none h, skip_element, Part.slot?]
    rfl

/-- The reader of the document element stores the parts, one after the other. -/
theorem readSlots_parts (parts : Separated Part) (closing : List Char) (more : List Token) :
    readSlots ending owner seen p (events (parts.tokens Part.tokens ++ .endTag closing :: more)) =
      storeParts seen p parts.list := by
  induction parts generalizing seen p with
  | last gap =>
    show readSlots ending owner seen p (events (gap.prose.tokens ++ .endTag closing :: more)) = _
    rw [readSlots_prose gap.prose rfl]
    exact readSlots_of_finish rfl
  | next gap part rest ih =>
    -- behind the gap stands a tag, so that the gap is a text of its own
    have hstart : startsWithText (events (part.tokens ++ (rest.tokens Part.tokens ++
        .endTag closing :: more))) = false := by
      cases part with
      | number field element h => rw [Part.tokens, element.events_tokens]; rfl
      | layers kind element h => rw [Part.tokens, element.events_tokens]; rfl
      | unknown element h => rw [Part.tokens, element.events_tokens]; rfl
    rw [Separated.tokens, List.append_assoc, List.append_assoc, readSlots_prose gap.prose hstart,
      readSlots_part, Separated.list, storeParts]
    cases part.slot? with
    | none => exact ih
    | some slot => simp only [ih]

/-- The document element is read as its parts are stored. -/
theorem readSlots_inside (e : Element (Separated Part)) (closing : List Char) (more : List Token) :
    readSlots ending owner seen p (events (e.insideTokens (Separated.tokens Part.tokens) ++
        .endTag closing :: more)) =
      storeParts seen p (e.value [] Separated.list) := by
  cases e with
  | alone tag => exact readSlots_of_finish rfl
  | around tag parts gap => exact readSlots_parts parts closing more

end

end ChipSettings.Document
