import ChipSettings.Proofs.Document.Extent

/-! # Line Ends of What Is Read

  The reader normalizes the line ends of a text, but not the characters that references stand
  for. So a layer name that was read has plain line ends only, unless a reference of the
  document brought another one in.

  - `PlainReferences ts`: no reference among the tokens stands for a foreign line end. Then the
    texts of the events have plain line ends only (`plainTexts_events`).
  - `PlainTexts.of_reads`: each reader goes on to later events, so that it meets no texts but those
    of the document.
  - `plainNames_read`: the layer names of a profile that was read.
-/

namespace ChipSettings.Document

open Text Number Xml

/-! ## Plain Line Ends -/

/-- The text has no line ends but line feeds. -/
def PlainLines (cs : List Char) : Prop := ∀ c ∈ cs, isForeignLineEnd c = false

instance (cs : List Char) : Decidable (PlainLines cs) :=
  List.decidableBAll (isForeignLineEnd · = false) cs

/-- The texts of the events have no line ends but line feeds. -/
def PlainTexts (es : List Event) : Prop :=
  ∀ content, .text (.ok content) ∈ es → PlainLines content

/-- No reference stands for a foreign line end. -/
def PlainReferences (ts : List Token) : Prop :=
  ∀ name c, .reference name ∈ ts → resolve name = .ok c → isForeignLineEnd c = false

/-- The layer names of the profile have no line ends but line feeds. -/
def PlainNames (p : Profile) : Prop := ∀ k, ∀ name ∈ p.layers k, PlainLines name.toList

theorem plainLines_normalizeLineEnds (cs : List Char) : PlainLines (normalizeLineEnds cs) :=
  fun _ => isForeignLineEnd_of_mem_normalizeLineEnds

theorem plainNames_default : PlainNames .default := by
  intro k
  cases k with
  | flow => show ∀ name ∈ ["Flow"], PlainLines name.toList; decide
  | control => show ∀ name ∈ ["Control"], PlainLines name.toList; decide

theorem PlainNames.setLayers {p : Profile} {names : List String} (h : PlainNames p)
    (hnames : ∀ name ∈ names, PlainLines name.toList) (k : LayerKind) :
    PlainNames (p.setLayers k names) := by
  intro k' name hname
  cases k with
  | flow => cases k' with
    | flow => exact hnames name hname
    | control => exact h .control name hname
  | control => cases k' with
    | flow => exact h .flow name hname
    | control => exact hnames name hname

/-! ## Texts of a Document -/

variable {ending : Ending} {owner : List Char} {es rest : List Event}

theorem PlainTexts.of_suffix (h : PlainTexts es) (hrest : rest <:+ es) : PlainTexts rest :=
  fun content hcontent => h content (hrest.mem hcontent)

/-- The events that a reader goes on to have plain texts, too. -/
theorem PlainTexts.of_reads {α : Type} {read : Ending → List Event → Except XmlError α}
    {result : List Event → α} (h : PlainTexts es) (hread : ReadsUpTo read es rest result) :
    PlainTexts rest := h.of_suffix hread.suffix

/-- A text that is joined to plain texts is plain if the piece in front is. -/
theorem PlainTexts.joinText {piece : Except XmlError (List Char)} (h : PlainTexts es)
    (hpiece : ∀ cs, piece = .ok cs → PlainLines cs) : PlainTexts (joinText piece es) := by
  have hfront : PlainTexts (.text piece :: es) := by
    intro content hcontent
    rcases List.mem_cons.1 hcontent with heq | hcontent
    · exact hpiece content (Event.text.inj heq).symm
    · exact h content hcontent
  cases es with
  | nil => exact hfront
  | cons e es => cases e with
    | start tag => exact hfront
    | finish => exact hfront
    | doctype => exact hfront
    | text behind =>
      intro content hcontent
      rcases List.mem_cons.1 hcontent with heq | hcontent
      · -- the joined text, whose two parts are plain
        obtain ⟨a, ha, hjoined⟩ := exists_of_bind_eq_ok (Event.text.inj heq).symm
        obtain ⟨b, hb, hjoined⟩ := exists_of_bind_eq_ok hjoined
        cases hjoined
        intro c hc
        rcases List.mem_append.1 hc with hc | hc
        · exact hpiece a ha c hc
        · exact h b (by rw [hb]; exact List.mem_cons_self) c hc
      · exact h content (List.mem_cons_of_mem _ hcontent)

/-- The texts of a document are plain if its references are. -/
theorem plainTexts_events {ts : List Token} (h : PlainReferences ts) : PlainTexts (events ts) := by
  induction ts with
  | nil => exact fun content hcontent => absurd hcontent List.not_mem_nil
  | cons t ts ih =>
    have ih := ih fun name c hname => h name c (List.mem_cons_of_mem t hname)
    have hrun {content cs : List Char}
        (heq : (Except.ok (normalizeLineEnds content) : Except XmlError (List Char)) = .ok cs) :
        PlainLines cs := by
      cases heq
      exact plainLines_normalizeLineEnds content
    have hnext {e : Event} (he : ∀ content, e ≠ .text content) : PlainTexts (e :: events ts) := by
      intro content hcontent
      rcases List.mem_cons.1 hcontent with heq | hcontent
      · exact absurd heq.symm (he _)
      · exact ih content hcontent
    cases t with
    | text content => exact ih.joinText fun _ => hrun
    | cdata content => exact ih.joinText fun _ => hrun
    | reference name =>
      refine ih.joinText fun cs heq => ?_
      obtain ⟨c, hc, rfl⟩ := exists_of_map_eq_ok heq
      intro d hd
      rw [List.mem_singleton.1 hd]
      exact h name c List.mem_cons_self hc
    | comment => exact ih
    | instruction => exact ih
    | doctype => exact hnext nofun
    | endTag name => exact hnext nofun
    | startTag tag selfClosing => cases selfClosing with
      | false => exact hnext nofun
      | true =>
        intro content hcontent
        rcases List.mem_cons.1 hcontent with heq | hcontent
        · cases heq
        · exact hnext (e := .finish) nofun content hcontent

/-! ## Names That Are Read -/

/-- A text that is delivered is one of the events. -/
theorem mem_of_deliver_text {content : List Char}
    (h : deliver ending owner es = .ok (.text content, rest)) : .text (.ok content) ∈ es := by
  obtain ⟨front, rfl, -⟩ := exists_of_deliver h
  exact List.mem_append_right front List.mem_cons_self

/-- The text of an element is one of the events, or there is none. -/
theorem plainLines_readText {content : List Char} (hes : PlainTexts es)
    (h : readText ending owner es = .ok (content, rest)) : PlainLines content := by
  obtain ⟨⟨item, es'⟩, hd, h⟩ := exists_of_bind_eq_ok h
  cases item with
  | finish => cases h; exact nofun
  | start tag => cases h
  | text content =>
    obtain ⟨⟨item', es''⟩, hd', h⟩ := exists_of_bind_eq_ok h
    cases item' with
    | finish => cases h; exact hes content (mem_of_deliver_text hd)
    | start tag => cases h
    | text content => cases h

/-- The names of a layer list are texts of the document. -/
theorem plainLines_readNames {progress : Progress} {names : List String} (hes : PlainTexts es)
    (h : readNames ending owner progress es = .ok (names, rest)) :
    ∀ name ∈ names, PlainLines name.toList := by
  -- by induction on the length, since an element that is read or skipped may be of any length
  induction hn : es.length using Nat.strongRecOn generalizing es progress names with
  | ind n ih =>
    subst hn
    rw [readNames_eq] at h
    obtain ⟨⟨item, es'⟩, hd, h⟩ := exists_of_bind_eq_ok h
    have hes' := hes.of_reads (readsUpTo_deliver hd)
    have hlt := length_deliver hd
    cases item with
    | finish => cases h; exact nofun
    | text content => exact ih _ hlt hes' h rfl
    | start tag =>
      simp only at h
      cases hrole : progress.role tag with
      | stray => rw [hrole] at h; cases h
      | item =>
        rw [hrole] at h
        obtain ⟨⟨name, es''⟩, ht, h⟩ := exists_of_bind_eq_ok h
        obtain ⟨⟨names', rest'⟩, hr, hresult⟩ := exists_of_map_eq_ok h
        cases hresult
        have hlt' := Nat.lt_trans (length_readText ht) hlt
        intro name' hname'
        rcases List.mem_cons.1 hname' with rfl | hname'
        · rw [String.toList_ofList]
          exact plainLines_readText hes' ht
        · exact ih _ hlt' (hes'.of_reads (readsUpTo_readText ht)) hr rfl name' hname'
      | unknown =>
        rw [hrole] at h
        obtain ⟨es'', ht, h⟩ := exists_of_bind_eq_ok h
        have hlt' := Nat.lt_trans (length_skip ht) hlt
        exact ih _ hlt' (hes'.of_reads (readsUpTo_skip ht)) h rfl

/-- The text of a number changes no layer name. -/
theorem layers_readValue {field : Field} {p q : Profile} {content : List Char}
    (h : readValue field p content = .ok q) (k : LayerKind) : q.layers k = p.layers k := by
  unfold readValue at h
  cases field with
  | punchBarNumber =>
    simp only at h
    split at h
    · cases h; cases k <;> rfl
    · cases h
  | measure m =>
    simp only at h
    split at h
    · cases h; exact Profile.layers_setReal _ _ _ k
    · cases h

theorem plainNames_readSlot {slot : Slot} {tag : Tag} {p q : Profile} (hes : PlainTexts es)
    (hp : PlainNames p) (h : readSlot ending slot tag p es = .ok (q, rest)) : PlainNames q := by
  cases slot with
  | layers kind =>
    obtain ⟨u, -, h⟩ := exists_of_bind_eq_ok h
    obtain ⟨⟨names, es'⟩, hr, h⟩ := exists_of_bind_eq_ok h
    cases h
    exact hp.setLayers (plainLines_readNames hes hr) kind
  | number field =>
    obtain ⟨⟨content, es'⟩, hr, h⟩ := exists_of_bind_eq_ok h
    obtain ⟨q', hvalue, h⟩ := exists_of_bind_eq_ok h
    cases h
    intro k
    rw [layers_readValue hvalue k]
    exact hp k

theorem plainNames_readSlots {seen : List Slot} {p q : Profile} (hes : PlainTexts es)
    (hp : PlainNames p) (h : readSlots ending owner seen p es = .ok q) : PlainNames q := by
  induction hn : es.length using Nat.strongRecOn generalizing es seen p with
  | ind n ih =>
    subst hn
    rw [readSlots_eq] at h
    obtain ⟨⟨item, es'⟩, hd, h⟩ := exists_of_bind_eq_ok h
    have hes' := hes.of_reads (readsUpTo_deliver hd)
    have hlt := length_deliver hd
    cases item with
    | finish => cases h; exact hp
    | text content => exact ih _ hlt hes' hp h rfl
    | start tag =>
      simp only at h
      cases hslot : Slot.ofName? tag.localName with
      | none =>
        rw [hslot] at h
        obtain ⟨es'', ht, h⟩ := exists_of_bind_eq_ok h
        exact ih _ (Nat.lt_trans (length_skip ht) hlt) (hes'.of_reads (readsUpTo_skip ht)) hp h rfl
      | some slot =>
        rw [hslot] at h
        simp only at h
        by_cases hseen : slot ∈ seen
        · rw [if_pos hseen] at h
          cases h
        · rw [if_neg hseen] at h
          obtain ⟨⟨p', es''⟩, ht, h⟩ := exists_of_bind_eq_ok h
          exact ih _ (Nat.lt_trans (length_readSlot ht) hlt)
            (hes'.of_reads (readsUpTo_readSlot ht)) (plainNames_readSlot hes' hp ht) h rfl

theorem plainNames_readRoot {p : Profile} (hes : PlainTexts es)
    (h : readRoot ending es = .ok p) : PlainNames p := by
  induction es with
  | nil => cases h
  | cons e es ih =>
    have hrest := hes.of_suffix (List.suffix_cons e es)
    cases e with
    | doctype => exact ih hrest h
    | finish => cases h
    | text content => cases content with
      | error e => cases h
      | ok content =>
        unfold readRoot at h
        split at h
        · exact ih hrest h
        · cases h
    | start tag =>
      obtain ⟨u, -, h⟩ := exists_of_bind_eq_ok h
      obtain ⟨u', -, h⟩ := exists_of_bind_eq_ok h
      exact plainNames_readSlots hrest plainNames_default h

/-- A profile that was read from a text has plain layer names, unless a reference of the text
    stands for a foreign line end. -/
theorem plainNames_read {cs : List Char} {p : Profile}
    (hreferences : PlainReferences (tokens (cs.dropWhile (· == byteOrderMark))).1)
    (h : read cs = .ok p) : PlainNames p := by
  obtain ⟨u, -, hroot⟩ := exists_of_bind_eq_ok h
  exact plainNames_readRoot (plainTexts_events hreferences) hroot

end ChipSettings.Document
