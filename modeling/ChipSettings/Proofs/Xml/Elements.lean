import ChipSettings.Proofs.Xml.Prose
import ChipSettings.Proofs.Xml.TagText

/-! # Elements as They Are Spelled

  An element is a tag around something, or an empty element tag.

  - `Element α`: an element with something of a kind inside. `Content` is any content: prose
    and elements, to any depth.
  - `Separated α`: things one after the other, with gaps of blanks and comments in between.
  - `scan_element`, `scan_content` and `scan_separated`: all of them give their tokens.
  - `skip_element`: an element that nobody reads is passed over, whatever it holds.
-/

namespace ChipSettings.Xml

open Text

/-! ## Elements -/

/-- An element with something inside. -/
inductive Element (α : Type) where
  /-- An empty element tag. -/
  | alone (tag : TagText)
  /-- A start tag and an end tag around the inside. Blanks may stand at the end of the end tag. -/
  | around (tag : TagText) (inside : α) (gap : Blanks)

namespace TagText

/-- A start tag and an end tag around a text. -/
def renderAround (t : TagText) (inside : List Char) (gap : Blanks) : List Char :=
  '<' :: (t.content ++ '>' :: (inside ++ '<' :: '/' :: (t.name.chars ++ (gap.chars ++ ['>']))))

/-- An empty element tag. -/
def renderAlone (t : TagText) : List Char := '<' :: (t.content ++ ['/', '>'])

def tokensAround (t : TagText) (inside : List Token) : List Token :=
  .startTag t.tag false :: (inside ++ [.endTag t.name.chars])

variable (t : TagText)

theorem scan_around {inside : List Char} {ts : List Token}
    (h : ∀ rest, scan (inside ++ '<' :: rest) = emit ts (scan ('<' :: rest))) (gap : Blanks)
    (rest : List Char) :
    scan (t.renderAround inside gap ++ rest) = emit (t.tokensAround ts) (scan rest) := by
  have hsplit : t.renderAround inside gap ++ rest = '<' :: (t.content ++ '>' :: (inside ++
      '<' :: '/' :: (t.name.chars ++ (gap.chars ++ '>' :: rest)))) := by
    simp [renderAround]
  rw [hsplit, t.scan_start, h, scan_end, emit_emit, emit_emit]
  rfl

theorem scan_alone (rest : List Char) :
    scan (t.renderAlone ++ rest) = emit [.startTag t.tag true] (scan rest) := by
  rw [← t.scan_empty]
  simp [renderAlone]

/-- The tags of a plain name around a text. -/
theorem renderAround_tagText {name : List Char} (h : PlainName name) (inside : List Char) :
    h.tagText.renderAround inside .none =
      '<' :: (name ++ '>' :: (inside ++ '<' :: '/' :: (name ++ ['>']))) := by
  rw [renderAround, h.content_tagText]
  rfl

theorem wellNested_tokensAround {ts : List Token} (h : WellNested ts) :
    WellNested (t.tokensAround ts) := by
  have helement := h.element t.tag
  rwa [t.name_tag] at helement

end TagText

namespace Element

variable {α : Type}

def tag : Element α → TagText
  | alone tag => tag
  | around tag _ _ => tag

/-- The element as it is spelled. -/
def render (inside : α → List Char) : Element α → List Char
  | alone tag => tag.renderAlone
  | around tag a gap => tag.renderAround (inside a) gap

/-- What is made of the inside; an empty element has none. -/
def value {β : Type} (none : β) (some : α → β) : Element α → β
  | alone _ => none
  | around _ a _ => some a

/-- The tokens between the tags; an empty element has none. -/
def insideTokens (inside : α → List Token) : Element α → List Token
  | alone _ => []
  | around _ a _ => inside a

def tokens (inside : α → List Token) : Element α → List Token
  | alone tag => [.startTag tag.tag true]
  | around tag a _ => tag.tokensAround (inside a)

theorem isTextChar_head?_render (e : Element α) (inside : α → List Char) (rest : List Char) :
    ∀ c ∈ (e.render inside ++ rest).head?, isTextChar c = false := by
  intro c hc
  cases e with
  | alone tag => cases hc; rfl
  | around tag a gap => cases hc; rfl

/-- An element gives its tokens if its inside does. -/
theorem scan_element {inside : α → List Char} {ts : α → List Token}
    (h : ∀ a rest, scan (inside a ++ '<' :: rest) = emit (ts a) (scan ('<' :: rest)))
    (e : Element α) (rest : List Char) :
    scan (e.render inside ++ rest) = emit (e.tokens ts) (scan rest) := by
  cases e with
  | alone tag => exact tag.scan_alone rest
  | around tag a gap => exact tag.scan_around (h a) gap rest

theorem wellNested_tokens {ts : α → List Token} (h : ∀ a, WellNested (ts a)) (e : Element α) :
    WellNested (e.tokens ts) := by
  cases e with
  | alone tag => exact .flat rfl
  | around tag a gap => exact tag.wellNested_tokensAround (h a)

/-- To a reader, an empty element is a start and an end like any other. -/
theorem events_tokens (e : Element α) (ts : α → List Token) (more : List Token) :
    events (e.tokens ts ++ more) = .start e.tag.tag ::
      events (e.insideTokens ts ++ .endTag e.tag.name.chars :: more) := by
  cases e with
  | alone tag => rfl
  | around tag a gap =>
    show Event.start tag.tag :: events (ts a ++ [.endTag tag.name.chars] ++ more) = _
    rw [List.append_assoc]
    rfl

end Element

/-! ## Things with Gaps in Between -/

/-- A gap between elements: blanks, comments and instructions. -/
structure Gap where
  prose : Prose
  isBlank : prose.isBlank = true

theorem Prose.isBlank_empty : Prose.empty.isBlank = true := rfl

/-- No gap. -/
def Gap.empty : Gap := ⟨.empty, Prose.isBlank_empty⟩

/-- Things one after the other, with a gap in front of each and one at the end. -/
inductive Separated (α : Type) where
  | last (gap : Gap)
  | next (gap : Gap) (a : α) (rest : Separated α)

namespace Separated

variable {α : Type}

/-- The things, without the gaps. -/
def list : Separated α → List α
  | last _ => []
  | next _ a rest => a :: rest.list

/-- The things as they are spelled. -/
def render (one : α → List Char) : Separated α → List Char
  | last gap => gap.prose.render
  | next gap a rest => gap.prose.render ++ (one a ++ rest.render one)

def tokens (one : α → List Token) : Separated α → List Token
  | last gap => gap.prose.tokens
  | next gap a rest => gap.prose.tokens ++ (one a ++ rest.tokens one)

/-- Things with gaps in between give their tokens if each of them does. -/
theorem scan_separated {one : α → List Char} {ts : α → List Token}
    (h : ∀ a rest, scan (one a ++ rest) = emit (ts a) (scan rest))
    (hone : ∀ a rest, ∀ c ∈ (one a ++ rest).head?, isTextChar c = false) (s : Separated α)
    {rest : List Char} (hrest : ∀ c ∈ rest.head?, isTextChar c = false) :
    scan (s.render one ++ rest) = emit (s.tokens ts) (scan rest) := by
  induction s with
  | last gap => exact gap.prose.scan_prose hrest
  | next gap a after ih =>
    rw [render, List.append_assoc, List.append_assoc, gap.prose.scan_prose (hone a _), h, ih,
      emit_emit, emit_emit, tokens, List.append_assoc]

theorem wellNested_tokens {ts : α → List Token} (h : ∀ a, WellNested (ts a)) (s : Separated α) :
    WellNested (s.tokens ts) := by
  induction s with
  | last gap => exact gap.prose.wellNested_tokens
  | next gap a rest ih => exact gap.prose.wellNested_tokens.append ((h a).append ih)

end Separated

/-! ## Content -/

/-- Any content of an element. -/
inductive Content where
  /-- Prose at the end. -/
  | last (prose : Prose)
  /-- Prose, an element with content, and further content. -/
  | element (prose : Prose) (tag : TagText) (inside : Content) (gap : Blanks) (rest : Content)
  /-- Prose, an empty element, and further content. -/
  | empty (prose : Prose) (tag : TagText) (rest : Content)

namespace Content

/-- The content as it is spelled. -/
def render : Content → List Char
  | last prose => prose.render
  | element prose tag inside gap rest =>
    prose.render ++ (tag.renderAround inside.render gap ++ rest.render)
  | empty prose tag rest => prose.render ++ (tag.renderAlone ++ rest.render)

def tokens : Content → List Token
  | last prose => prose.tokens
  | element prose tag inside _ rest =>
    prose.tokens ++ (tag.tokensAround inside.tokens ++ rest.tokens)
  | empty prose tag rest => prose.tokens ++ (.startTag tag.tag true :: rest.tokens)

variable (content : Content)

/-- Content gives its tokens, up to the next tag. -/
theorem scan_content {rest : List Char} (hrest : ∀ c ∈ rest.head?, isTextChar c = false) :
    scan (content.render ++ rest) = emit content.tokens (scan rest) := by
  induction content generalizing rest with
  | last prose => exact prose.scan_prose hrest
  | element prose tag inside gap after ihInside ihAfter =>
    have hinside (rest : List Char) :
        scan (inside.render ++ '<' :: rest) = emit inside.tokens (scan ('<' :: rest)) :=
      ihInside (by simp [isTextChar])
    rw [render, List.append_assoc, List.append_assoc,
      prose.scan_prose (by simp [TagText.renderAround, isTextChar]), tag.scan_around hinside,
      ihAfter hrest, emit_emit, emit_emit, tokens, List.append_assoc]
  | empty prose tag after ihAfter =>
    rw [render, List.append_assoc, List.append_assoc,
      prose.scan_prose (by simp [TagText.renderAlone, isTextChar]), tag.scan_alone,
      ihAfter hrest, emit_emit, emit_emit, tokens, List.append_assoc]
    rfl

theorem wellNested_tokens : WellNested content.tokens := by
  induction content with
  | last prose => exact prose.wellNested_tokens
  | element prose tag inside gap after ihInside ihAfter =>
    exact prose.wellNested_tokens.append ((tag.wellNested_tokensAround ihInside).append ihAfter)
  | empty prose tag after ihAfter =>
    have htag : WellNested [.startTag tag.tag true] := .flat rfl
    exact prose.wellNested_tokens.append (htag.append ihAfter)

end Content

/-! ## Skipping Content -/

section Skipping

variable {ending : Ending} {name : List Char} {es padded : List Event} {value : List Char}

/-- A text is skipped, be it there or not. -/
theorem Padded.skipRest_eq (h : Padded value es padded) (depth : Nat) :
    skipRest ending name depth padded = skipRest ending name depth es := by
  rcases h with rfl | ⟨rfl, -⟩
  · rfl
  · rfl

/-- All of a content is skipped, at any depth. -/
theorem skipRest_content (content : Content) (closing : List Char) (depth : Nat)
    (more : List Token) :
    skipRest ending name depth (events (content.tokens ++ .endTag closing :: more)) =
      skipRest ending name depth (.finish :: events more) := by
  induction content generalizing closing depth more with
  | last prose => exact (prose.padded_events rfl).skipRest_eq depth
  | element prose tag inside gap after ihInside ihAfter =>
    -- one level deeper inside of the element, and back behind it
    have hafter := ihAfter closing depth more
    have hinside := ihInside tag.name.chars (depth + 1) (after.tokens ++ .endTag closing :: more)
    have hsplit : (Content.element prose tag inside gap after).tokens ++ .endTag closing :: more =
        prose.tokens ++ .startTag tag.tag false :: (inside.tokens ++ .endTag tag.name.chars ::
          (after.tokens ++ .endTag closing :: more)) := by
      simp [Content.tokens, TagText.tokensAround]
    rw [hsplit, (prose.padded_events rfl).skipRest_eq depth]
    exact hinside.trans hafter
  | empty prose tag after ihAfter =>
    have hafter := ihAfter closing depth more
    have hsplit : (Content.empty prose tag after).tokens ++ .endTag closing :: more =
        prose.tokens ++ .startTag tag.tag true :: (after.tokens ++ .endTag closing :: more) := by
      simp [Content.tokens]
    rw [hsplit, (prose.padded_events rfl).skipRest_eq depth]
    exact hafter

/-- If events start with an element, its namespaces are in order. -/
def Checked (es : List Event) : Prop :=
  ∀ tag rest, es = .start tag :: rest → tag.checkNamespaces = .ok ()

theorem Padded.checked (h : Padded value es padded) (hes : Checked es) : Checked padded := by
  rcases h with rfl | ⟨rfl, -⟩
  · intro tag rest heq
    cases heq
  · exact hes

/-- A tag as it is spelled declares nothing that is out of order. -/
theorem checked_start (tag : TagText) (es : List Event) : Checked (.start tag.tag :: es) := by
  intro tag' rest heq
  cases heq
  exact tag.checkNamespaces_tag

theorem checked_finish (es : List Event) : Checked (.finish :: es) := by
  intro tag rest heq
  cases heq

theorem checked_content (content : Content) (closing : List Char) (more : List Token) :
    Checked (events (content.tokens ++ .endTag closing :: more)) := by
  cases content with
  | last prose => exact (prose.padded_events rfl).checked (checked_finish _)
  | element prose tag inside gap after =>
    rw [Content.tokens, List.append_assoc]
    exact (prose.padded_events rfl).checked (checked_start tag _)
  | empty prose tag after =>
    rw [Content.tokens, List.append_assoc]
    exact (prose.padded_events rfl).checked (checked_start tag _)

theorem leave_of_checked (h : Checked es) : leave ending name es = skipRest ending name 0 es := by
  unfold leave
  split
  · next tag rest => rw [h tag rest rfl]; rfl
  · rfl

/-- An element is left behind all of its content. -/
theorem leave_content (content : Content) (closing : List Char) (more : List Token) :
    leave ending name (events (content.tokens ++ .endTag closing :: more)) =
      .ok (events more) := by
  rw [leave_of_checked (checked_content content closing more), skipRest_content]
  rfl

/-- Behind a text, an element is passed over as it is left. -/
theorem Padded.skip_eq {rest : List Event} (h : Padded value es padded) (hes : Checked es)
    (hrest : skipRest ending name 0 es = .ok rest) (hskip : skip ending name es = .ok rest) :
    skip ending name padded = .ok rest := by
  rcases h with rfl | ⟨rfl, -⟩
  · show leave ending name es = .ok rest
    rw [leave_of_checked hes, hrest]
  · exact hskip

/-- A start tag as it is spelled is delivered. -/
theorem deliver_tag (tag : TagText) (ending : Ending) (name : List Char) (es : List Event) :
    deliver ending name (.start tag.tag :: es) = .ok (.start tag.tag, es) := by
  rw [deliver, tag.checkNamespaces_tag]
  rfl

/-- An element that comes first is left, and then the one around it. -/
theorem skip_start (tag : TagText) (es : List Event) :
    skip ending name (.start tag.tag :: es) =
      (leave ending tag.name.chars es).bind (leave ending name) := by
  unfold skip
  rw [deliver_tag, ← tag.name_tag]
  rfl

/-- All of a content is passed over, whatever its first event is. -/
theorem skip_content (content : Content) (closing : List Char) (more : List Token) :
    skip ending name (events (content.tokens ++ .endTag closing :: more)) = .ok (events more) := by
  cases content with
  | last prose => exact (prose.padded_events rfl).skip_eq (checked_finish _) rfl rfl
  | element prose tag inside gap after =>
    rw [Content.tokens, List.append_assoc]
    refine (prose.padded_events rfl).skip_eq (checked_start tag _)
      (skipRest_content (.element .empty tag inside gap after) closing 0 more) ?_
    show skip ending name (.start tag.tag :: events
      (inside.tokens ++ [.endTag tag.name.chars] ++ after.tokens ++ .endTag closing :: more)) = _
    rw [skip_start, List.append_assoc, List.append_assoc]
    exact (congrArg (Except.bind · _) (leave_content inside _ _)).trans
      (leave_content after closing more)
  | empty prose tag after =>
    rw [Content.tokens, List.append_assoc]
    refine (prose.padded_events rfl).skip_eq (checked_start tag _)
      (skipRest_content (.empty .empty tag after) closing 0 more) ?_
    show skip ending name (.start tag.tag :: .finish ::
      events (after.tokens ++ .endTag closing :: more)) = _
    rw [skip_start]
    exact leave_content after closing more

/-- An element that nobody reads is passed over, whatever it holds. -/
theorem skip_element (e : Element Content) (more : List Token) :
    skip ending name (events (e.insideTokens Content.tokens ++ .endTag e.tag.name.chars :: more)) =
      .ok (events more) := by
  cases e with
  | alone tag => exact skip_content (.last .empty) tag.name.chars more
  | around tag content gap => exact skip_content content tag.name.chars more

end Skipping

end ChipSettings.Xml
