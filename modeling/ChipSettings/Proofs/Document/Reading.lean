import ChipSettings.Proofs.Document.Written
import ChipSettings.Proofs.Form.Shown

/-! # Reading What Was Written

  The reader of a settings document, event by event, and its run over a written document.

  - `readNames_eq` and `readSlots_eq`: what the two loops of the reader do at the next event.
    Proofs about the loops use these and never unfold them.
  - `readSlots_slotTokens`: slots that were written one after the other are read into a
    profile one after the other, in any order and from any profile, if none comes twice.
  - `assign` is what one slot of a written document does to the profile read so far.
-/

namespace ChipSettings.Document

open Text Number Xml

/-! ## The Loops, Event by Event -/

section Loops

variable {ending : Ending} {owner : List Char} {es rest rest' : List Event}

/-- What the reader of a layer list does at the next event. -/
theorem readNames_eq (ending : Ending) (owner : List Char) (progress : Progress)
    (es : List Event) :
    readNames ending owner progress es = (deliver ending owner es).bind fun (item, rest) =>
      match item with
      | .finish => .ok ([], rest)
      | .text content => readNames ending owner (progress.afterText content) rest
      | .start tag => match progress.role tag with
        | .stray => .error (.duplicateElement itemName)
        | .item => (readText ending tag.name rest).bind fun (name, rest') =>
          (readNames ending owner (.within tag.name) rest').map fun (names, rest) =>
            (String.ofList name :: names, rest)
        | .unknown => (skip ending tag.name rest).bind
          (readNames ending owner progress.afterUnknown) := by
  rw [readNames]
  split
  · next hd => simp only [hd, Except.bind]
  · next hd => simp only [hd, Except.bind]
  · next hd => simp only [hd, Except.bind]
  · next tag rest hd =>
    simp only [hd, Except.bind]
    cases progress.role tag with
    | stray => rfl
    | item =>
      simp only
      split
      · next ht => rw [ht]
      · next ht => rw [ht]
    | unknown =>
      simp only
      split
      · next ht => rw [ht]
      · next ht => rw [ht]

/-- What the reader of the document element does at the next event. -/
theorem readSlots_eq (ending : Ending) (owner : List Char) (seen : List Slot) (p : Profile)
    (es : List Event) :
    readSlots ending owner seen p es = (deliver ending owner es).bind fun (item, rest) =>
      match item with
      | .finish => .ok p
      | .text _ => readSlots ending owner seen p rest
      | .start tag => match Slot.ofName? tag.localName with
        | none => (skip ending tag.name rest).bind (readSlots ending owner seen p)
        | some slot =>
          if slot ∈ seen then .error (.duplicateElement slot.name)
          else (readSlot ending slot tag p rest).bind fun (q, rest') =>
            readSlots ending owner (slot :: seen) q rest' := by
  rw [readSlots]
  split
  · next hd => simp only [hd, Except.bind]
  · next hd => simp only [hd, Except.bind]
  · next hd => simp only [hd, Except.bind]
  · next tag rest hd =>
    simp only [hd, Except.bind]
    cases Slot.ofName? tag.localName with
    | none =>
      simp only
      split
      · next ht => rw [ht]
      · next ht => rw [ht]
    | some slot =>
      simp only
      by_cases hseen : slot ∈ seen
      · rw [if_pos hseen, if_pos hseen]
      · rw [if_neg hseen, if_neg hseen]
        split
        · next ht => rw [ht]
        · next ht => rw [ht]

variable {progress : Progress}

theorem readNames_of_finish (h : deliver ending owner es = .ok (.finish, rest)) :
    readNames ending owner progress es = .ok ([], rest) := by
  rw [readNames_eq, h]
  rfl

theorem readNames_of_text {content : List Char}
    (h : deliver ending owner es = .ok (.text content, rest)) :
    readNames ending owner progress es =
      readNames ending owner (progress.afterText content) rest := by
  rw [readNames_eq, h]
  rfl

theorem readNames_of_item {tag : Tag} {content : List Char}
    (h : deliver ending owner es = .ok (.start tag, rest)) (hrole : progress.role tag = .item)
    (hread : readText ending tag.name rest = .ok (content, rest')) :
    readNames ending owner progress es =
      (readNames ending owner (.within tag.name) rest').map fun (names, rest) =>
        (String.ofList content :: names, rest) := by
  rw [readNames_eq, h]
  simp only [Except.bind, hrole, hread]

variable {seen : List Slot} {p q : Profile}

theorem readSlots_of_finish (h : deliver ending owner es = .ok (.finish, rest)) :
    readSlots ending owner seen p es = .ok p := by
  rw [readSlots_eq, h]
  rfl

theorem readSlots_of_text {content : List Char}
    (h : deliver ending owner es = .ok (.text content, rest)) :
    readSlots ending owner seen p es = readSlots ending owner seen p rest := by
  rw [readSlots_eq, h]
  rfl

theorem readSlots_of_slot {tag : Tag} {slot : Slot}
    (h : deliver ending owner es = .ok (.start tag, rest))
    (hslot : Slot.ofName? tag.localName = some slot) (hnew : slot ∉ seen)
    (hread : readSlot ending slot tag p rest = .ok (q, rest')) :
    readSlots ending owner seen p es = readSlots ending owner (slot :: seen) q rest' := by
  rw [readSlots_eq, h]
  simp only [Except.bind, hslot, if_neg hnew, hread]

end Loops

/-! ## Blanks Between Elements -/

/-- A start tag with a plain name is delivered. -/
theorem deliver_start {name : List Char} (h : PlainName name) (ending : Ending) (owner : List Char)
    (es : List Event) :
    deliver ending owner (.start ⟨name⟩ :: es) = .ok (.start ⟨name⟩, es) := by
  rw [deliver, h.tag_checkNamespaces]
  rfl

theorem normalizeLineEnds_blank (depth : Nat) :
    normalizeLineEnds ('\n' :: indent depth) = '\n' :: indent depth := by
  apply normalizeLineEnds_eq_self
  intro c hc
  rcases List.mem_cons.1 hc with rfl | hc
  · decide
  · rw [List.eq_of_mem_replicate hc]
    decide

/-- The event of the blanks between two elements. -/
def blankEvent (depth : Nat) : Event := .text (.ok ('\n' :: indent depth))

/-- Blanks in front of an element are a text of their own. -/
theorem events_blank_start {ts : List Token} {tag : Tag} {es : List Event}
    (h : events ts = .start tag :: es) (depth : Nat) :
    events (blankToken depth :: ts) = blankEvent depth :: .start tag :: es := by
  show joinText (.ok (normalizeLineEnds ('\n' :: indent depth))) (events ts) = _
  rw [h, normalizeLineEnds_blank]
  rfl

theorem events_blank_finish (depth : Nat) (name : List Char) (more : List Token) :
    events (blankToken depth :: .endTag name :: more) =
      blankEvent depth :: .finish :: events more := by
  show joinText (.ok (normalizeLineEnds ('\n' :: indent depth))) (.finish :: events more) = _
  rw [normalizeLineEnds_blank]
  rfl

theorem all_blank (depth : Nat) : ('\n' :: indent depth).all isMarkupSpace = true :=
  List.all_eq_true.2 fun _ hc => isMarkupSpace_of_mem_blank hc

/-! ## Layer Names -/

/-- A layer name as it is read back: its line ends normalized. -/
def normalizedName (name : String) : String := String.ofList (normalizeLineEnds name.toList)

/-- A name without foreign line ends is read back as it is. -/
theorem normalizedName_eq_self {name : String}
    (h : ∀ c ∈ name.toList, isForeignLineEnd c = false) : normalizedName name = name := by
  rw [normalizedName, normalizeLineEnds_eq_self h, String.ofList_toList]

/-- Before the run of names and within it, an item is a name of the run. -/
theorem role_item {progress : Progress}
    (h : progress = .before ∨ progress = .within itemName.toList) {tag : Tag}
    (hname : tag.name = itemName.toList) : progress.role tag = .item := by
  have hlocal : tag.localName = itemName.toList := by
    rw [Tag.localName, hname]
    decide
  rcases h with rfl | rfl
  · simp [Progress.role, hlocal]
  · simp [Progress.role, hname]

/-- Blanks do not end the run of names. -/
theorem afterText_of_blank (progress : Progress) {content : List Char}
    (h : content.all isMarkupSpace = true) : progress.afterText content = progress := by
  cases progress with
  | before => rfl
  | within run => rw [Progress.afterText, if_pos h]
  | after => rfl

/-- Names that were written are read, in their order and up to the end of their list. -/
theorem readNames_nameTokens (ending : Ending) (owner list : List Char) (names : List String)
    (more : List Token) {progress : Progress}
    (h : progress = .before ∨ progress = .within itemName.toList) :
    readNames ending owner progress
        (events (names.flatMap nameTokens ++ blankToken 1 :: .endTag list :: more)) =
      .ok (names.map normalizedName, events more) := by
  induction names generalizing progress with
  | nil =>
    show readNames ending owner progress (events (blankToken 1 :: .endTag list :: more)) = _
    rw [events_blank_finish]
    calc readNames ending owner progress (blankEvent 1 :: .finish :: events more)
        = readNames ending owner _ (.finish :: events more) := readNames_of_text rfl
      _ = .ok ([], events more) := readNames_of_finish rfl
  | cons name names ih =>
    -- the blanks in front of the name, its element, and then the other names
    have ih := ih (.inr rfl)
    generalize hrest : names.flatMap nameTokens ++ blankToken 1 :: .endTag list :: more = ts at ih
    have hsplit : (name :: names).flatMap nameTokens ++ blankToken 1 :: .endTag list :: more =
        blankToken 2 :: (elementTokens itemName name.toList ++ ts) := by
      rw [← hrest]
      simp [nameTokens]
    obtain ⟨es, hes, hread⟩ := readText_elementTokens itemName name.toList ts
    rw [hsplit, events_blank_start hes]
    calc readNames ending owner progress
          (blankEvent 2 :: .start ⟨itemName.toList⟩ :: es)
        = readNames ending owner (progress.afterText _) (.start ⟨itemName.toList⟩ :: es) :=
          readNames_of_text rfl
      _ = readNames ending owner progress (.start ⟨itemName.toList⟩ :: es) := by
          rw [afterText_of_blank progress (all_blank 2)]
      _ = (readNames ending owner (.within itemName.toList) (events ts)).map
            fun (names, rest) => (normalizedName name :: names, rest) := by
          rw [readNames_of_item (deliver_start plainName_itemName _ _ _)
            (role_item h plainName_itemName.tag_name) (hread _ _), plainName_itemName.tag_name]
          rfl
      _ = .ok ((name :: names).map normalizedName, events more) := by
          rw [ih]
          rfl

/-- A layer list that was written is read as its names. -/
theorem readNames_layersTokens (kind : LayerKind) (names : List String) (more : List Token) :
    ∃ es, events (layersTokens kind names ++ more) = .start ⟨kind.elementName.toList⟩ :: es ∧
      ∀ ending owner, readNames ending owner .before es =
        .ok (names.map normalizedName, events more) := by
  unfold layersTokens
  split
  · next hempty =>
    obtain rfl : names = [] := List.isEmpty_iff.1 hempty
    exact ⟨.finish :: events more, rfl, fun _ _ => readNames_of_finish rfl⟩
  · refine ⟨events (names.flatMap nameTokens ++
      blankToken 1 :: .endTag kind.elementName.toList :: more), ?_, ?_⟩
    · simp [events]
    · intro ending owner
      exact readNames_nameTokens ending owner _ names more (.inl rfl)

/-! ## Slots -/

/-- A profile with one part taken from another profile, as that part is read back. -/
def assign (p q : Profile) : Slot → Profile
  | .layers kind => q.setLayers kind ((p.layers kind).map normalizedName)
  | .number .punchBarNumber => { q with punchBarNumber := p.punchBarNumber }
  | .number (.measure m) => q.setReal m (p.real m)

/-- A foreign line end is a blank, of which the text of a field has none. -/
theorem isForeignLineEnd_of_mem_read {f : Field} {p : Profile} {c : Char}
    (hc : c ∈ (f.read p).toList) : isForeignLineEnd c = false := by
  have hne {d : Char} (hd : isBlank d = true) : (c == d) = false := by
    apply beq_false_of_ne
    rintro rfl
    rw [Field.isBlank_of_mem_read hc] at hd
    cases hd
  rw [isForeignLineEnd, hne (by decide), hne (by decide), hne (by decide)]
  rfl

/-- A document does not normalize anything in the text of a field. -/
theorem normalizeLineEnds_read (f : Field) (p : Profile) :
    normalizeLineEnds (f.read p).toList = (f.read p).toList :=
  normalizeLineEnds_eq_self fun _ => isForeignLineEnd_of_mem_read

/-- The text of a field stores the field's value, whatever it is. -/
theorem readValue_read (f : Field) (p q : Profile) :
    readValue f q (f.read p).toList = .ok (assign p q (.number f)) := by
  have htrim : trimBoth isMarkupSpace (f.read p).toList = (f.read p).toList := by
    apply trimBoth_eq_self
    intro c hc
    cases hspace : isMarkupSpace c with
    | false => rfl
    | true =>
      have hblank := Field.isBlank_of_mem_read hc
      rw [isBlank_of_isMarkupSpace hspace] at hblank
      cases hblank
  simp only [readValue, htrim]
  cases f with
  | punchBarNumber =>
    simp only [Field.read, String.toList_ofList, readInt32?_intText]
    rfl
  | measure m =>
    simp only [Field.read, String.toList_ofList, Binary64.read?_text]
    rfl

/-- A slot that was written is read as the part it was written from. -/
theorem readSlot_slotTokens (p : Profile) (slot : Slot) (more : List Token) :
    ∃ es, events (slotTokens p slot ++ more) =
        blankEvent 1 :: .start ⟨slot.name.toList⟩ :: es ∧
      ∀ ending q, readSlot ending slot ⟨slot.name.toList⟩ q es =
        .ok (assign p q slot, events more) := by
  cases slot with
  | layers kind =>
    obtain ⟨es, hes, hread⟩ := readNames_layersTokens kind (p.layers kind) more
    refine ⟨es, events_blank_start hes 1, fun ending q => ?_⟩
    rw [readSlot, (plainName_slotName (.layers kind)).tag_checkAttributes, hread]
    rfl
  | number f =>
    obtain ⟨es, hes, hread⟩ := readText_elementTokens f.name (f.read p).toList more
    refine ⟨es, events_blank_start hes 1, fun ending q => ?_⟩
    rw [readSlot, hread, normalizeLineEnds_read]
    show (readValue f q (f.read p).toList >>= fun q' => .ok (q', events more)) = _
    rw [readValue_read]
    rfl

/-- Slots that were written one after the other are all read, if none comes twice. -/
theorem readSlots_slotTokens (ending : Ending) (owner root : List Char) (p : Profile)
    (slots : List Slot) (more : List Token) {seen : List Slot} (q : Profile)
    (hnodup : slots.Nodup) (hnew : ∀ slot ∈ slots, slot ∉ seen) :
    readSlots ending owner seen q
        (events (slots.flatMap (slotTokens p) ++ blankToken 0 :: .endTag root :: more)) =
      .ok (slots.foldl (assign p) q) := by
  induction slots generalizing seen q with
  | nil =>
    show readSlots ending owner seen q (events (blankToken 0 :: .endTag root :: more)) = _
    rw [events_blank_finish]
    calc readSlots ending owner seen q (blankEvent 0 :: .finish :: events more)
        = readSlots ending owner seen q (.finish :: events more) := readSlots_of_text rfl
      _ = .ok q := readSlots_of_finish rfl
  | cons slot slots ih =>
    obtain ⟨hslot, hnodup⟩ := List.nodup_cons.1 hnodup
    -- the slot at the front is read now, and does not come again
    have hlater : ∀ other ∈ slots, other ∉ slot :: seen := by
      intro other hother hseen
      rcases List.mem_cons.1 hseen with rfl | hseen
      · exact hslot hother
      · exact hnew other (List.mem_cons_of_mem slot hother) hseen
    have ih := ih (assign p q slot) hnodup hlater
    rw [List.flatMap_cons, List.append_assoc]
    obtain ⟨es, hes, hread⟩ := readSlot_slotTokens p slot
      (slots.flatMap (slotTokens p) ++ blankToken 0 :: .endTag root :: more)
    have hname : Slot.ofName? (Tag.localName ⟨slot.name.toList⟩) = some slot := by
      rw [(plainName_slotName slot).tag_localName, ofName?_name]
    rw [hes]
    calc readSlots ending owner seen q (blankEvent 1 :: .start ⟨slot.name.toList⟩ :: es)
        = readSlots ending owner seen q (.start ⟨slot.name.toList⟩ :: es) := readSlots_of_text rfl
      _ = readSlots ending owner (slot :: seen) (assign p q slot) (events _) :=
          readSlots_of_slot (deliver_start (plainName_slotName slot) _ _ _) hname
            (hnew slot List.mem_cons_self) (hread ending q)
      _ = .ok ((slot :: slots).foldl (assign p) q) := ih

end ChipSettings.Document
