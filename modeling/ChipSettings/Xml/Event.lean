import ChipSettings.Xml.Reference
import ChipSettings.Xml.Token

/-! # Events

  Events are what the tokens of a document mean to a reader of its content:

  - comments and instructions are gone, so that the text around them joins;
  - adjacent text, sections and references are one text, resolved; a text with a bad
    reference carries the error, which counts only if somebody reads the text;
  - an empty element is a start and an end;
  - a document type declaration stays, because it separates texts.

  `deliver` hands the next event to a reader, and `skip` passes over an element that
  nobody reads: of its inside only what comes first is looked at.
-/

namespace ChipSettings.Xml

open Text

/-- An event of a document. -/
inductive Event where
  /-- A text, or the error in one of its references. -/
  | text (content : Except XmlError (List Char))
  | start (tag : Tag)
  | finish
  | doctype

/-! ## From Tokens to Events -/

/-- Put a piece of text in front of events, joining it with a text that comes first. -/
def joinText (piece : Except XmlError (List Char)) : List Event → List Event
  | .text content :: events => .text (do return (← piece) ++ (← content)) :: events
  | events => .text piece :: events

/-- The events that tokens mean. -/
def events : List Token → List Event
  | [] => []
  | .text content :: ts => joinText (.ok (normalizeLineEnds content)) (events ts)
  | .cdata content :: ts => joinText (.ok (normalizeLineEnds content)) (events ts)
  | .reference name :: ts => joinText ((resolve name).map ([·])) (events ts)
  | .comment :: ts => events ts
  | .instruction :: ts => events ts
  | .doctype :: ts => .doctype :: events ts
  | .startTag tag false :: ts => .start tag :: events ts
  | .startTag tag true :: ts => .start tag :: .finish :: events ts
  | .endTag _ :: ts => .finish :: events ts

/-! ## Taking the Next Event -/

/-- An event as a reader meets it. -/
inductive Item where
  | text (content : List Char)
  | start (tag : Tag)
  | finish
deriving DecidableEq

/-- Deliver the next event inside the element `name`: declarations are passed over, a
    bad reference in a text or a bad namespace declaration in a tag is an error, and so
    is the end of the input. -/
def deliver (ending : Ending) (name : List Char) : List Event → Except XmlError (Item × List Event)
  | [] => .error (ending.error (.unclosedElement name))
  | .doctype :: es => deliver ending name es
  | .text (.error error) :: _ => .error error
  | .text (.ok content) :: es => .ok (.text content, es)
  | .start tag :: es => do
    tag.checkNamespaces
    return (.start tag, es)
  | .finish :: es => .ok (.finish, es)

/-! ## Skipping an Element -/

/-- Pass over events up to the end of the element `name`, unread. `depth` counts the
    elements open inside it. -/
def skipRest (ending : Ending) (name : List Char) (depth : Nat) :
    List Event → Except XmlError (List Event)
  | [] => .error (ending.error (.unclosedElement name))
  | .finish :: es => match depth with
    | 0 => .ok es
    | d + 1 => skipRest ending name d es
  | .start _ :: es => skipRest ending name (depth + 1) es
  | _ :: es => skipRest ending name depth es

/-- Pass over the rest of the element `name`. The event at hand has been seen already,
    so that a bad namespace declaration in it is an error. -/
def leave (ending : Ending) (name : List Char) (es : List Event) :
    Except XmlError (List Event) := do
  if let .start tag :: _ := es then tag.checkNamespaces
  skipRest ending name 0 es

/-- Pass over the element `name`, whose start tag has been read. Its first event is
    read like any other. -/
def skip (ending : Ending) (name : List Char) (es : List Event) :
    Except XmlError (List Event) := do
  let (item, es) ← deliver ending name es
  match item with
  | .finish => return es
  | .text _ => leave ending name es
  | .start tag => leave ending name (← leave ending tag.name es)

/-! ## Elements That Hold Text -/

/-- Read the text of the element `name`, whose start tag has been read: one text or
    none, and then its end. -/
def readText (ending : Ending) (name : List Char) (es : List Event) :
    Except XmlError (List Char × List Event) := do
  let (item, es) ← deliver ending name es
  match item with
  | .finish => return ([], es)
  | .start tag => throw (.unexpectedElement tag.name)
  | .text content =>
    let (item, es) ← deliver ending name es
    match item with
    | .finish => return (content, es)
    | .start tag => throw (.unexpectedElement tag.name)
    | .text _ => throw (.brokenText name)

/-! ## Reading Consumes Events -/

theorem length_deliver {ending : Ending} {name : List Char} {es rest : List Event} {item : Item}
    (h : deliver ending name es = .ok (item, rest)) : rest.length < es.length := by
  induction es with
  | nil => simp [deliver] at h
  | cons e es ih =>
    cases e with
    | doctype => exact Nat.lt_succ_of_lt (ih h)
    | finish =>
      simp only [deliver, Except.ok.injEq, Prod.mk.injEq] at h
      simp [h.2]
    | text content =>
      cases content with
      | error e => simp [deliver] at h
      | ok c =>
        simp only [deliver, Except.ok.injEq, Prod.mk.injEq] at h
        simp [h.2]
    | start tag =>
      unfold deliver at h
      cases hn : tag.checkNamespaces with
      | error e => simp [hn, bind, Except.bind] at h
      | ok u =>
        simp only [hn, bind, Except.bind, pure, Except.pure, Except.ok.injEq, Prod.mk.injEq] at h
        simp [h.2]

theorem length_skipRest {ending : Ending} {name : List Char} {depth : Nat}
    {es rest : List Event} (h : skipRest ending name depth es = .ok rest) :
    rest.length < es.length := by
  induction es generalizing depth with
  | nil => simp [skipRest] at h
  | cons e es ih =>
    cases e with
    | finish =>
      cases depth with
      | zero =>
        simp only [skipRest, Except.ok.injEq] at h
        simp [h]
      | succ d => exact Nat.lt_succ_of_lt (ih h)
    | start tag => exact Nat.lt_succ_of_lt (ih h)
    | text content => exact Nat.lt_succ_of_lt (ih h)
    | doctype => exact Nat.lt_succ_of_lt (ih h)

theorem length_leave {ending : Ending} {name : List Char} {es rest : List Event}
    (h : leave ending name es = .ok rest) : rest.length < es.length := by
  have key : skipRest ending name 0 es = .ok rest := by
    unfold leave at h
    split at h
    · next tag _ =>
      cases hn : tag.checkNamespaces with
      | error e => simp [hn, bind, Except.bind] at h
      | ok u => simpa [hn, bind, Except.bind] using h
    · simpa [bind, Except.bind, pure, Except.pure] using h
  exact length_skipRest key

theorem length_skip {ending : Ending} {name : List Char} {es rest : List Event}
    (h : skip ending name es = .ok rest) : rest.length < es.length := by
  unfold skip at h
  cases ht : deliver ending name es with
  | error e => simp [ht, bind, Except.bind] at h
  | ok r =>
    obtain ⟨item, es'⟩ := r
    have hlt := length_deliver ht
    simp only [ht, bind, Except.bind] at h
    cases item with
    | finish =>
      simp only [pure, Except.pure, Except.ok.injEq] at h
      rwa [← h]
    | text content => exact Nat.lt_trans (length_leave h) hlt
    | start tag =>
      simp only at h
      cases hl : leave ending tag.name es' with
      | error e => simp [hl] at h
      | ok es'' =>
        simp only [hl] at h
        exact Nat.lt_trans (length_leave h) (Nat.lt_trans (length_leave hl) hlt)

theorem length_readText {ending : Ending} {name : List Char} {es rest : List Event}
    {content : List Char} (h : readText ending name es = .ok (content, rest)) :
    rest.length < es.length := by
  unfold readText at h
  cases ht : deliver ending name es with
  | error e => simp [ht, bind, Except.bind] at h
  | ok r =>
    obtain ⟨item, es'⟩ := r
    have hlt := length_deliver ht
    simp only [ht, bind, Except.bind] at h
    cases item with
    | finish =>
      simp only [pure, Except.pure, Except.ok.injEq, Prod.mk.injEq] at h
      rw [← h.2]; exact hlt
    | start tag => simp [throw, throwThe, MonadExceptOf.throw] at h
    | text c =>
      simp only at h
      cases ht' : deliver ending name es' with
      | error e => simp [ht'] at h
      | ok r' =>
        obtain ⟨item', es''⟩ := r'
        have hlt' := length_deliver ht'
        simp only [ht'] at h
        cases item' with
        | finish =>
          simp only [pure, Except.pure, Except.ok.injEq, Prod.mk.injEq] at h
          rw [← h.2]; exact Nat.lt_trans hlt' hlt
        | start tag => simp [throw, throwThe, MonadExceptOf.throw] at h
        | text c' => simp [throw, throwThe, MonadExceptOf.throw] at h

end ChipSettings.Xml
