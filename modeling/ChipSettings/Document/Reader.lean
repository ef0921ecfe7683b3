import ChipSettings.Document.Slot
import ChipSettings.Profile
import ChipSettings.Xml.Event

/-! # Reading a Settings Document

  A document is read in two passes over its tokens:

  - the first looks for the document element and refuses any other than a settings
    element, whatever precedes it;
  - the second reads the settings from the events. A slot the document does not hold
    keeps its default, an unknown element is skipped, and a slot that occurs twice is
    an error.

  Nothing behind the end of the document element is looked at.
-/

namespace ChipSettings.Document

open Text Number Xml

/-! ## Layer Names -/

/-- How far the names of a layer list have been read. They are one run of item elements
    of the same full name. -/
inductive Progress where
  | before
  | within (run : List Char)
  | after

/-- What an element inside a layer list is. -/
inductive Role where
  /-- A name of the run. -/
  | item
  /-- An item element outside the run. -/
  | stray
  | unknown

namespace Progress

/-- The role of an element at this point. -/
def role (progress : Progress) (tag : Tag) : Role :=
  let isItem := tag.localName = itemName.toList
  match progress with
  | before => if isItem then .item else .unknown
  | within run => if tag.name = run then .item else if isItem then .stray else .unknown
  | after => if isItem then .stray else .unknown

/-- A text between elements ends the run, unless it is blank. -/
def afterText (progress : Progress) (content : List Char) : Progress :=
  match progress with
  | before => before
  | within run => if content.all isMarkupSpace then within run else after
  | after => after

/-- An unknown element ends the run. -/
def afterUnknown (progress : Progress) : Progress :=
  match progress with
  | before => before
  | _ => after

end Progress

/-- Read the names of the layer list `owner`, whose start tag has been read, up to its
    end. -/
def readNames (ending : Ending) (owner : List Char) (progress : Progress) (es : List Event) :
    Except XmlError (List String × List Event) :=
  match h : deliver ending owner es with
  | .error error => .error error
  | .ok (.finish, rest) => .ok ([], rest)
  | .ok (.text content, rest) =>
    have : rest.length < es.length := length_deliver h
    readNames ending owner (progress.afterText content) rest
  | .ok (.start tag, rest) =>
    have hrest : rest.length < es.length := length_deliver h
    match progress.role tag with
    | .stray => .error (.duplicateElement itemName)
    | .item => match ht : readText ending tag.name rest with
      | .error error => .error error
      | .ok (name, rest') =>
        have : rest'.length < es.length := Nat.lt_trans (length_readText ht) hrest
        (readNames ending owner (.within tag.name) rest').map fun (names, rest) =>
          (String.ofList name :: names, rest)
    | .unknown => match ht : skip ending tag.name rest with
      | .error error => .error error
      | .ok rest' =>
        have : rest'.length < es.length := Nat.lt_trans (length_skip ht) hrest
        readNames ending owner progress.afterUnknown rest'
termination_by es.length

/-! ## Slots -/

/-- The number that the text of a document stores in a field: blanks of the markup
    around it do not count, and every real is allowed, finite or not. -/
def readValue (field : Field) (p : Profile) (content : List Char) : Except XmlError Profile :=
  let trimmed := trimBoth isMarkupSpace content
  match field with
  | .punchBarNumber => match readInt32? trimmed with
    | some n => .ok { p with punchBarNumber := n }
    | none => .error (.unexpectedText content .integer)
  | .measure m => match Binary64.read? trimmed with
    | some x => .ok (p.setReal m x)
    | none => .error (.unexpectedText content .real)

/-- Read the element of a slot, whose start tag is given, into a profile. -/
def readSlot (ending : Ending) (slot : Slot) (tag : Tag) (p : Profile) (es : List Event) :
    Except XmlError (Profile × List Event) :=
  match slot with
  | .layers kind => do
    tag.checkAttributes
    let (names, es) ← readNames ending tag.name .before es
    return (p.setLayers kind names, es)
  | .number field => do
    let (content, es) ← readText ending tag.name es
    return (← readValue field p content, es)

/-! ## Reading Consumes Events -/

theorem length_readNames {ending : Ending} {owner : List Char} {progress : Progress}
    {es rest : List Event} {names : List String}
    (h : readNames ending owner progress es = .ok (names, rest)) : rest.length < es.length := by
  induction hn : es.length using Nat.strongRecOn generalizing es progress names with
  | ind n ih =>
    subst hn
    unfold readNames at h
    split at h
    · simp at h
    · next hd =>
      simp only [Except.ok.injEq, Prod.mk.injEq] at h
      rw [← h.2]
      exact length_deliver hd
    · next hd =>
      have hlt := length_deliver hd
      exact Nat.lt_trans (ih _ hlt h rfl) hlt
    · next tag es' hd =>
      have hlt := length_deliver hd
      simp only at h
      split at h
      · simp at h
      · split at h
        · simp at h
        · next name rest' ht =>
          have hlt' := Nat.lt_trans (length_readText ht) hlt
          cases hr : readNames ending owner (.within tag.name) rest' with
          | error e => simp [hr, Except.map] at h
          | ok r =>
            obtain ⟨names', es''⟩ := r
            simp only [hr, Except.map, Except.ok.injEq, Prod.mk.injEq] at h
            obtain ⟨-, rfl⟩ := h
            exact Nat.lt_trans (ih _ hlt' hr rfl) hlt'
      · split at h
        · simp at h
        · next ht =>
          have hlt' := Nat.lt_trans (length_skip ht) hlt
          exact Nat.lt_trans (ih _ hlt' h rfl) hlt'

theorem length_readSlot {ending : Ending} {slot : Slot} {tag : Tag} {p q : Profile}
    {es rest : List Event} (h : readSlot ending slot tag p es = .ok (q, rest)) :
    rest.length < es.length := by
  unfold readSlot at h
  cases slot with
  | layers kind =>
    simp only [bind, Except.bind, pure, Except.pure] at h
    split at h
    · simp at h
    · split at h
      · simp at h
      · next hr =>
        simp only [Except.ok.injEq, Prod.mk.injEq] at h
        rw [← h.2]
        exact length_readNames hr
  | number field =>
    simp only [bind, Except.bind, pure, Except.pure] at h
    split at h
    · simp at h
    · next hr =>
      split at h
      · simp at h
      · simp only [Except.ok.injEq, Prod.mk.injEq] at h
        rw [← h.2]
        exact length_readText hr

/-! ## The Document -/

/-- Read the children of the document element `owner` into a profile, up to its end.
    `seen` holds the slots read before. -/
def readSlots (ending : Ending) (owner : List Char) (seen : List Slot) (p : Profile)
    (es : List Event) : Except XmlError Profile :=
  match h : deliver ending owner es with
  | .error error => .error error
  | .ok (.finish, _) => .ok p
  | .ok (.text _, rest) =>
    have : rest.length < es.length := length_deliver h
    readSlots ending owner seen p rest
  | .ok (.start tag, rest) =>
    have hrest : rest.length < es.length := length_deliver h
    match Slot.ofName? tag.localName with
    | none => match hs : skip ending tag.name rest with
      | .error error => .error error
      | .ok rest' =>
        have : rest'.length < es.length := Nat.lt_trans (length_skip hs) hrest
        readSlots ending owner seen p rest'
    | some slot =>
      if slot ∈ seen then .error (.duplicateElement slot.name)
      else match hs : readSlot ending slot tag p rest with
        | .error error => .error error
        | .ok (q, rest') =>
          have : rest'.length < es.length := Nat.lt_trans (length_readSlot hs) hrest
          readSlots ending owner (slot :: seen) q rest'
termination_by es.length

/-- Read the document element. Blank text and declarations may precede it. -/
def readRoot (ending : Ending) : List Event → Except XmlError Profile
  | [] => .error (ending.error .noRoot)
  | .doctype :: es => readRoot ending es
  | .finish :: _ => .error .noRoot
  | .text (.error error) :: _ => .error error
  | .text (.ok content) :: es =>
    if content.all isMarkupSpace then readRoot ending es
    else .error (.unexpectedText content .profile)
  | .start tag :: es => do
    tag.checkNamespaces
    tag.checkAttributes
    readSlots ending tag.name [] .default es

/-- Look for the document element, which must be a settings element. -/
def checkRoot (ending : Ending) : List Token → Except XmlError Unit
  | [] => .error (ending.error .noRoot)
  | .startTag tag _ :: _ =>
    if tag.localName = rootName.toList then .ok () else .error (.wrongRoot tag.localName)
  | _ :: ts => checkRoot ending ts

/-- The byte order mark, which may precede a document. -/
def byteOrderMark : Char := '\uFEFF'

/-- Read a settings document. -/
def read (cs : List Char) : Except XmlError Profile := do
  let (ts, ending) := tokens (cs.dropWhile (· == byteOrderMark))
  checkRoot ending ts
  readRoot ending (events ts)

end ChipSettings.Document
