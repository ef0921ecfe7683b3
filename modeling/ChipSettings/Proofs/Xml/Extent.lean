import ChipSettings.Proofs.Outcome
import ChipSettings.Proofs.Xml.Prefix

/-! # How Far a Reader Reads

  Whoever reads or skips an element of a document stops at its end, and has looked at nothing
  behind it.

  - `ReadsUpTo`: a reader goes on from some events to later ones, and does so whatever stands
    there instead of the later ones. `ReadsUpTo.bind`: so does one reader after the other.
    `ReadsToEnd` is the same for a reader that stops at the end of an element.
  - `readsUpTo_skip`, `readsUpTo_readText` and their companions: each reader of an element is of
    this kind.
  - `exists_tokens_of_events`, `nest_same_front` and `scan_same_front`: events up to an end are
    those of the first tokens, which are the same whatever follows them in the text.
-/

namespace ChipSettings.Xml

/-! ## Readers -/

section Readers

variable {α β : Type} {read read' first : Ending → List Event → Except XmlError α}
  {es rest rest' : List Event} {result : List Event → α}

/-- The reader goes on from `es` to `rest`. From the same events it goes on to whatever stands
    behind them instead, with the result that belongs to it. -/
def ReadsUpTo (read : Ending → List Event → Except XmlError α) (es rest : List Event)
    (result : List Event → α) : Prop :=
  ∃ front, es = front ++ rest ∧ ∀ ending more, read ending (front ++ more) = .ok (result more)

/-- The reader reads `es` up to the end of an element, and looks at nothing behind it. -/
def ReadsToEnd (read : Ending → List Event → Except XmlError α) (es : List Event) (a : α) : Prop :=
  ∃ front rest, es = front ++ .finish :: rest ∧
    ∀ ending more, read ending (front ++ .finish :: more) = .ok a

theorem ReadsToEnd.of_eq {a : α} (heq : ∀ ending es, read ending es = read' ending es)
    (h : ReadsToEnd read' es a) : ReadsToEnd read es a := by
  obtain ⟨front, rest, hfront, hread⟩ := h
  exact ⟨front, rest, hfront, fun ending more => (heq _ _).trans (hread ending more)⟩

namespace ReadsUpTo

theorem suffix (h : ReadsUpTo read es rest result) : rest <:+ es := by
  obtain ⟨front, rfl, -⟩ := h
  exact List.suffix_append front rest

/-- Nothing is read. -/
theorem nothing (es : List Event) (result : List Event → α) :
    ReadsUpTo (fun _ es => .ok (result es)) es es result :=
  ⟨[], rfl, fun _ _ => rfl⟩

theorem of_eq (heq : ∀ ending es, read ending es = read' ending es)
    (h : ReadsUpTo read' es rest result) : ReadsUpTo read es rest result := by
  obtain ⟨front, hfront, hread⟩ := h
  exact ⟨front, hfront, fun ending more => (heq _ _).trans (hread ending more)⟩

/-- One reader after the other. -/
theorem bind {next : Ending → α → Except XmlError β} {result' : List Event → β}
    (h : ReadsUpTo first es rest result)
    (hnext : ReadsUpTo (fun ending es => next ending (result es)) rest rest' result') :
    ReadsUpTo (fun ending es => (first ending es).bind (next ending)) es rest' result' := by
  obtain ⟨front, rfl, hfirst⟩ := h
  obtain ⟨front', rfl, hnext⟩ := hnext
  refine ⟨front ++ front', (List.append_assoc _ _ _).symm, fun ending more => ?_⟩
  show (first ending (front ++ front' ++ more)).bind (next ending) = _
  rw [List.append_assoc, hfirst]
  exact hnext ending more

/-- A reader in front of one that reads to an end. -/
theorem bind_end {next : Ending → α → Except XmlError β} {b : β}
    (h : ReadsUpTo first es rest result)
    (hnext : ReadsToEnd (fun ending es => next ending (result es)) rest b) :
    ReadsToEnd (fun ending es => (first ending es).bind (next ending)) es b := by
  obtain ⟨front, rfl, hfirst⟩ := h
  obtain ⟨front', behind, rfl, hnext⟩ := hnext
  refine ⟨front ++ front', behind, (List.append_assoc _ _ _).symm, fun ending more => ?_⟩
  show (first ending (front ++ front' ++ .finish :: more)).bind (next ending) = _
  rw [List.append_assoc, hfirst]
  exact hnext ending more

theorem map (h : ReadsUpTo read es rest result) (f : α → β) :
    ReadsUpTo (fun ending es => (read ending es).map f) es rest (fun more => f (result more)) := by
  obtain ⟨front, hfront, hread⟩ := h
  exact ⟨front, hfront, fun ending more => congrArg (Except.map f) (hread ending more)⟩

end ReadsUpTo

end Readers

/-! ## The Readers of Elements -/

variable {ending : Ending} {name content : List Char} {es rest : List Event}

/-- The event that an item is delivered for. -/
def Item.event : Item → Event
  | .text content => .text (.ok content)
  | .start tag => .start tag
  | .finish => .finish

/-- Only declarations stand in front of the event that is delivered, and only the two are looked
    at. -/
theorem exists_of_deliver {item : Item} (h : deliver ending name es = .ok (item, rest)) :
    ∃ front, es = front ++ item.event :: rest ∧
      ∀ ending more, deliver ending name (front ++ item.event :: more) = .ok (item, more) := by
  induction es with
  | nil => cases h
  | cons e es ih =>
    cases e with
    | doctype =>
      obtain ⟨front, rfl, hfront⟩ := ih h
      exact ⟨.doctype :: front, rfl, hfront⟩
    | finish => cases h; exact ⟨[], rfl, fun _ _ => rfl⟩
    | text content =>
      cases content with
      | error e => cases h
      | ok content => cases h; exact ⟨[], rfl, fun _ _ => rfl⟩
    | start tag =>
      obtain ⟨u, hcheck, h⟩ := exists_of_bind_eq_ok h
      cases h
      refine ⟨[], rfl, fun ending more => ?_⟩
      show tag.checkNamespaces.bind _ = _
      rw [hcheck]
      rfl

theorem readsUpTo_deliver {item : Item} (h : deliver ending name es = .ok (item, rest)) :
    ReadsUpTo (deliver · name ·) es rest (item, ·) := by
  obtain ⟨front, rfl, hfront⟩ := exists_of_deliver h
  refine ⟨front ++ [item.event], (List.append_cons front item.event rest), fun ending more => ?_⟩
  rw [← List.append_cons]
  exact hfront ending more

theorem readsUpTo_skipRest {depth : Nat} (h : skipRest ending name depth es = .ok rest) :
    ReadsUpTo (skipRest · name depth ·) es rest id := by
  induction es generalizing depth with
  | nil => cases h
  | cons e es ih =>
    -- an event that does not end the skipping is passed over, at another depth perhaps
    have hover (inner : Nat) (h : skipRest ending name inner es = .ok rest)
        (hstep : ∀ ending es, skipRest ending name depth (e :: es) =
          skipRest ending name inner es) :
        ReadsUpTo (skipRest · name depth ·) (e :: es) rest id := by
      obtain ⟨front, rfl, hfront⟩ := ih h
      exact ⟨e :: front, rfl, fun ending more => (hstep _ _).trans (hfront ending more)⟩
    cases e with
    | text content => exact hover depth h fun _ _ => rfl
    | doctype => exact hover depth h fun _ _ => rfl
    | start tag => exact hover (depth + 1) h fun _ _ => rfl
    | finish => cases depth with
      | zero => cases h; exact ⟨[.finish], rfl, fun _ _ => rfl⟩
      | succ depth => exact hover depth h fun _ _ => rfl

theorem readsUpTo_leave (h : leave ending name es = .ok rest) :
    ReadsUpTo (leave · name ·) es rest id := by
  cases es with
  | nil => cases h
  | cons e es =>
    -- the check of the first event does not depend on the others
    have hcheck : ∃ check : Except XmlError Unit, check = .ok () ∧
        skipRest ending name 0 (e :: es) = .ok rest ∧
        ∀ ending more, leave ending name (e :: more) =
          check.bind fun _ => skipRest ending name 0 (e :: more) := by
      cases e with
      | start tag =>
        obtain ⟨u, hcheck, h⟩ := exists_of_bind_eq_ok h
        exact ⟨_, hcheck, h, fun _ _ => rfl⟩
      | finish => exact ⟨.ok (), rfl, h, fun _ _ => rfl⟩
      | text content => exact ⟨.ok (), rfl, h, fun _ _ => rfl⟩
      | doctype => exact ⟨.ok (), rfl, h, fun _ _ => rfl⟩
    obtain ⟨check, rfl, hskip, hleave⟩ := hcheck
    obtain ⟨front, hfront, hread⟩ := readsUpTo_skipRest hskip
    cases front with
    | nil => cases hread .complete []
    | cons first front =>
      obtain rfl := (List.cons.inj hfront).1
      exact ⟨e :: front, hfront, fun ending more => (hleave _ _).trans (hread ending more)⟩

/-- Skipping an element. -/
theorem readsUpTo_skip (h : skip ending name es = .ok rest) :
    ReadsUpTo (skip · name ·) es rest id := by
  obtain ⟨⟨item, es'⟩, hd, h⟩ := exists_of_bind_eq_ok h
  refine ReadsUpTo.bind (readsUpTo_deliver hd) ?_
  cases item with
  | finish => cases h; exact .nothing _ _
  | text content => exact readsUpTo_leave h
  | start tag =>
    obtain ⟨es'', hchild, h⟩ := exists_of_bind_eq_ok h
    exact (readsUpTo_leave hchild).bind (readsUpTo_leave h)

/-- Reading the text of an element. -/
theorem readsUpTo_readText (h : readText ending name es = .ok (content, rest)) :
    ReadsUpTo (readText · name ·) es rest (content, ·) := by
  obtain ⟨⟨item, es'⟩, hd, h⟩ := exists_of_bind_eq_ok h
  refine ReadsUpTo.bind (readsUpTo_deliver hd) ?_
  cases item with
  | finish => cases h; exact .nothing _ _
  | start tag => cases h
  | text content =>
    obtain ⟨⟨item', es''⟩, hd', h⟩ := exists_of_bind_eq_ok h
    refine ReadsUpTo.bind (readsUpTo_deliver hd') ?_
    cases item' with
    | finish => cases h; exact .nothing _ _
    | start tag => cases h
    | text content => cases h

/-! ## The Tokens of What Is Read -/

/-- The token is a tag. -/
def Token.isTag : Token → Bool
  | .startTag _ _ => true
  | .endTag _ => true
  | _ => false

/-- The end of an element stands behind a piece of text that is put in front. -/
theorem exists_of_joinText {piece : Except XmlError (List Char)} {front : List Event}
    (h : joinText piece es = front ++ .finish :: rest) :
    ∃ front', es = front' ++ .finish :: rest ∧
      ∀ more, joinText piece (front' ++ .finish :: more) = front ++ .finish :: more := by
  cases front with
  | nil => cases es with
    | nil => cases h
    | cons e es => cases e <;> cases h
  | cons first front => cases es with
    | nil => exact absurd (List.cons.inj h).2.symm (List.append_ne_nil_of_right_ne_nil _ nofun)
    | cons e es =>
      -- either the first event is joined to the piece, or the piece is a text of its own
      cases e with
      | text content =>
        obtain ⟨rfl, rfl⟩ := List.cons.inj h
        exact ⟨.text content :: front, rfl, fun _ => rfl⟩
      | _ =>
        obtain ⟨rfl, heq⟩ := List.cons.inj h
        refine ⟨front, heq, fun more => ?_⟩
        cases front with
        | nil => rfl
        | cons second front => obtain ⟨rfl, -⟩ := List.cons.inj heq; rfl

/-- Events up to the end of an element are those of the tokens up to a tag, whatever tokens come
    behind. -/
theorem exists_tokens_of_events {ts : List Token} {front : List Event}
    (h : events ts = front ++ .finish :: rest) :
    ∃ us t vs, ts = us ++ t :: vs ∧ t.isTag = true ∧
      ∀ more, events (us ++ t :: more) = front ++ .finish :: events more := by
  induction ts generalizing front with
  | nil => exact absurd h.symm (List.append_ne_nil_of_right_ne_nil _ nofun)
  | cons first ts ih =>
    -- the end may stand among the events of the later tokens
    have hlater {front' : List Event} (heq : events ts = front' ++ .finish :: rest)
        (hfirst : ∀ us more, events us = front' ++ .finish :: more →
          events (first :: us) = front ++ .finish :: more) :
        ∃ us t vs, first :: ts = us ++ t :: vs ∧ t.isTag = true ∧
          ∀ more, events (us ++ t :: more) = front ++ .finish :: events more := by
      obtain ⟨us, t, vs, rfl, htag, hevents⟩ := ih heq
      exact ⟨first :: us, t, vs, rfl, htag, fun more => hfirst _ _ (hevents more)⟩
    have hjoined {piece : Except XmlError (List Char)}
        (hfirst : ∀ us, events (first :: us) = joinText piece (events us)) :
        ∃ us t vs, first :: ts = us ++ t :: vs ∧ t.isTag = true ∧
          ∀ more, events (us ++ t :: more) = front ++ .finish :: events more := by
      obtain ⟨front', heq, hmore⟩ := exists_of_joinText ((hfirst ts).symm.trans h)
      exact hlater heq fun us more hus => by rw [hfirst, hus, hmore]
    cases first with
    | text content => exact hjoined fun _ => rfl
    | cdata content => exact hjoined fun _ => rfl
    | reference name => exact hjoined fun _ => rfl
    | comment => exact hlater h fun _ _ hus => hus
    | instruction => exact hlater h fun _ _ hus => hus
    | doctype => cases front with
      | nil => cases h
      | cons e front =>
        obtain ⟨rfl, heq⟩ := List.cons.inj h
        exact hlater heq fun _ _ hus => congrArg (Event.doctype :: ·) hus
    | endTag name => cases front with
      | nil => exact ⟨[], .endTag name, ts, rfl, rfl, fun _ => rfl⟩
      | cons e front =>
        obtain ⟨rfl, heq⟩ := List.cons.inj h
        exact hlater heq fun _ _ hus => congrArg (Event.finish :: ·) hus
    | startTag tag selfClosing => cases front with
      | nil => cases selfClosing <;> cases h
      | cons e front => cases selfClosing with
        | false =>
          obtain ⟨rfl, heq⟩ := List.cons.inj h
          exact hlater heq fun _ _ hus => congrArg (Event.start tag :: ·) hus
        | true => cases front with
          | nil =>
            obtain ⟨rfl, -⟩ := List.cons.inj h
            exact ⟨[], .startTag tag true, ts, rfl, rfl, fun _ => rfl⟩
          | cons e' front =>
            obtain ⟨rfl, hnext⟩ := List.cons.inj h
            obtain ⟨rfl, heq⟩ := List.cons.inj hnext
            exact hlater heq fun _ _ hus => congrArg (Event.start tag :: Event.finish :: ·) hus

/-- The tokens that are well nested at the front stay so, whatever comes behind them. -/
theorem nest_same_front {opened : List (List Char)} {us vs ws : List Token} {ending : Ending}
    (h : (nest opened (us ++ vs) ending).1 = us ++ ws) (more : List Token) (ending' : Ending) :
    ∃ ws', (nest opened (us ++ more) ending').1 = us ++ ws' := by
  induction us generalizing opened with
  | nil => exact ⟨_, rfl⟩
  | cons t us ih =>
    have hproceed {inner : List (List Char)}
        (h : t :: (nest inner (us ++ vs) ending).1 = t :: us ++ ws) :
        ∃ ws', t :: (nest inner (us ++ more) ending').1 = t :: us ++ ws' := by
      obtain ⟨ws', hws'⟩ := ih (List.cons.inj h).2
      exact ⟨ws', congrArg (t :: ·) hws'⟩
    cases t with
    | startTag tag selfClosing => cases selfClosing with
      | true => exact hproceed h
      | false => exact hproceed h
    | endTag name => cases opened with
      | nil => cases h
      | cons innermost outer =>
        rw [List.cons_append, nest] at h ⊢
        by_cases hname : innermost = name
        · simp only [if_pos hname] at h ⊢
          exact hproceed h
        · simp only [if_neg hname] at h
          cases h
    | text content => exact hproceed h
    | cdata content => exact hproceed h
    | reference name => exact hproceed h
    | comment => exact hproceed h
    | instruction => exact hproceed h
    | doctype => exact hproceed h

/-- The first token of a text. -/
theorem exists_of_scan {cs : List Char} {t : Token} {ts : List Token} (h : (scan cs).1 = t :: ts) :
    ∃ c behind rest, cs = c :: behind ∧ Token.read c behind = .ok (t, rest) ∧
      (scan rest).1 = ts := by
  cases cs with
  | nil =>
    rw [scan_nil] at h
    cases h
  | cons c behind =>
    cases hread : Token.read c behind with
    | error e =>
      rw [scan_of_error hread] at h
      cases h
    | ok found =>
      obtain ⟨first, rest⟩ := found
      rw [scan_of_read hread] at h
      obtain ⟨rfl, hts⟩ := List.cons.inj h
      exact ⟨c, behind, rest, rfl, hread, hts⟩

/-- The tokens of a text up to a tag are the first ones of every text that starts with it. -/
theorem scan_same_front {cs : List Char} {us vs : List Token} {t : Token}
    (h : (scan cs).1 = us ++ t :: vs) (htag : t.isTag = true) (more : List Char) :
    ∃ vs', (scan (cs ++ more)).1 = us ++ t :: vs' := by
  induction us generalizing cs with
  | nil =>
    obtain ⟨c, behind, rest, rfl, hread, -⟩ := exists_of_scan h
    rcases Token.read_append hread more with happend | ⟨content, rfl, -⟩
    · exact ⟨_, congrArg Prod.fst (scan_of_read happend)⟩
    · cases htag
  | cons u us ih =>
    obtain ⟨c, behind, rest, rfl, hread, hrest⟩ := exists_of_scan h
    rcases Token.read_append hread more with happend | ⟨content, -, rfl⟩
    · obtain ⟨vs', hvs'⟩ := ih hrest
      refine ⟨vs', (congrArg Prod.fst (scan_of_read happend)).trans ?_⟩
      exact congrArg (u :: ·) hvs'
    · -- a text that the input ended is the last token
      rw [scan_nil] at hrest
      exact absurd hrest.symm (List.append_ne_nil_of_right_ne_nil us nofun)

end ChipSettings.Xml
