import ChipSettings.Proofs.Document.Reading
import ChipSettings.Proofs.Xml.Extent

/-! # How Far a Document Is Read

  The readers of a document stop where the element that they read ends, like all readers of
  elements.

  - `readsUpTo_readNames`, `readsUpTo_readSlot` and `readsToEnd_readSlots`: each of them goes on to
    the events behind its element, whatever these are.
  - `exists_end_readRoot`: the events of a document that is read, up to the end of the document
    element, are read as the same profile whatever stands behind them.
-/

namespace ChipSettings.Document

open Xml

variable {ending : Ending} {owner : List Char} {es rest : List Event}

/-- Reading the names of a layer list. -/
theorem readsUpTo_readNames {progress : Progress} {names : List String}
    (h : readNames ending owner progress es = .ok (names, rest)) :
    ReadsUpTo (readNames · owner progress ·) es rest (names, ·) := by
  -- by induction on the length, since an element that is read or skipped may be of any length
  induction hn : es.length using Nat.strongRecOn generalizing es progress names with
  | ind n ih =>
    subst hn
    rw [readNames_eq] at h
    obtain ⟨⟨item, es'⟩, hd, h⟩ := exists_of_bind_eq_ok h
    have hlt := length_deliver hd
    refine .of_eq (readNames_eq · owner progress ·) ((readsUpTo_deliver hd).bind ?_)
    cases item with
    | finish => cases h; exact .nothing _ _
    | text content => exact ih _ hlt h rfl
    | start tag =>
      simp only at h ⊢
      cases hrole : progress.role tag with
      | stray => rw [hrole] at h; cases h
      | item =>
        rw [hrole] at h
        obtain ⟨⟨name, es''⟩, ht, h⟩ := exists_of_bind_eq_ok h
        obtain ⟨⟨names', rest'⟩, hr, hresult⟩ := exists_of_map_eq_ok h
        cases hresult
        have hlt' := Nat.lt_trans (length_readText ht) hlt
        exact (readsUpTo_readText ht).bind
          ((ih _ hlt' hr rfl).map fun found => (String.ofList name :: found.1, found.2))
      | unknown =>
        rw [hrole] at h
        obtain ⟨es'', ht, h⟩ := exists_of_bind_eq_ok h
        have hlt' := Nat.lt_trans (length_skip ht) hlt
        exact (readsUpTo_skip ht).bind (ih _ hlt' h rfl)

/-- Reading a slot. -/
theorem readsUpTo_readSlot {slot : Slot} {tag : Tag} {p q : Profile}
    (h : readSlot ending slot tag p es = .ok (q, rest)) :
    ReadsUpTo (readSlot · slot tag p ·) es rest (q, ·) := by
  cases slot with
  | layers kind =>
    obtain ⟨u, hcheck, h⟩ := exists_of_bind_eq_ok h
    obtain ⟨⟨names, es'⟩, hr, h⟩ := exists_of_bind_eq_ok h
    cases h
    have heq (ending : Ending) (es : List Event) : readSlot ending (.layers kind) tag p es =
        (readNames ending tag.name .before es).map fun found =>
          (p.setLayers kind found.1, found.2) := by
      show tag.checkAttributes.bind _ = _
      rw [hcheck]
      rfl
    exact .of_eq heq ((readsUpTo_readNames hr).map _)
  | number field =>
    obtain ⟨⟨content, es'⟩, hr, h⟩ := exists_of_bind_eq_ok h
    obtain ⟨q', hvalue, h⟩ := exists_of_bind_eq_ok h
    cases h
    refine ReadsUpTo.bind (readsUpTo_readText hr) (.of_eq (fun _ es => ?_) (.nothing _ _))
    show (readValue field p content).bind _ = _
    rw [hvalue]
    rfl

/-- Reading the children of the document element, up to its end. -/
theorem readsToEnd_readSlots {seen : List Slot} {p q : Profile}
    (h : readSlots ending owner seen p es = .ok q) :
    ReadsToEnd (readSlots · owner seen p ·) es q := by
  induction hn : es.length using Nat.strongRecOn generalizing es seen p with
  | ind n ih =>
    subst hn
    rw [readSlots_eq] at h
    obtain ⟨⟨item, es'⟩, hd, h⟩ := exists_of_bind_eq_ok h
    have hlt := length_deliver hd
    refine .of_eq (readSlots_eq · owner seen p ·) ?_
    cases item with
    | finish =>
      cases h
      obtain ⟨front, hfront, hread⟩ := exists_of_deliver hd
      refine ⟨front, es', hfront, fun ending more => ?_⟩
      show (deliver ending owner (front ++ .finish :: more)).bind _ = _
      rw [show deliver ending owner (front ++ .finish :: more) = _ from hread ending more]
      rfl
    | text content => exact (readsUpTo_deliver hd).bind_end (ih _ hlt h rfl)
    | start tag =>
      refine (readsUpTo_deliver hd).bind_end ?_
      simp only at h ⊢
      cases hslot : Slot.ofName? tag.localName with
      | none =>
        rw [hslot] at h
        obtain ⟨es'', ht, h⟩ := exists_of_bind_eq_ok h
        exact (readsUpTo_skip ht).bind_end (ih _ (Nat.lt_trans (length_skip ht) hlt) h rfl)
      | some slot =>
        rw [hslot] at h
        simp only at h ⊢
        by_cases hseen : slot ∈ seen
        · rw [if_pos hseen] at h
          cases h
        · simp only [if_neg hseen] at h ⊢
          obtain ⟨⟨p', es''⟩, ht, h⟩ := exists_of_bind_eq_ok h
          exact (readsUpTo_readSlot ht).bind_end
            (ih _ (Nat.lt_trans (length_readSlot ht) hlt) h rfl)

/-- Reading the document element, up to its end. Its start tag is among the events. -/
theorem exists_end_readRoot {p : Profile} (h : readRoot ending es = .ok p) :
    ∃ front rest tag, es = front ++ .finish :: rest ∧ .start tag ∈ front ∧
      ∀ ending more, readRoot ending (front ++ .finish :: more) = .ok p := by
  induction es with
  | nil => cases h
  | cons e es ih =>
    cases e with
    | doctype =>
      obtain ⟨front, rest, tag, rfl, htag, hread⟩ := ih h
      exact ⟨.doctype :: front, rest, tag, rfl, List.mem_cons_of_mem _ htag, hread⟩
    | finish => cases h
    | text content => cases content with
      | error e => cases h
      | ok content =>
        unfold readRoot at h
        split at h
        · next hblank =>
          obtain ⟨front, rest, tag, rfl, htag, hread⟩ := ih h
          refine ⟨.text (.ok content) :: front, rest, tag, rfl, List.mem_cons_of_mem _ htag,
            fun ending more => ?_⟩
          rw [List.cons_append, readRoot, if_pos hblank]
          exact hread ending more
        · cases h
    | start tag =>
      obtain ⟨u, hnames, h⟩ := exists_of_bind_eq_ok h
      obtain ⟨u', hattributes, h⟩ := exists_of_bind_eq_ok h
      obtain ⟨front, rest, rfl, hread⟩ := readsToEnd_readSlots h
      refine ⟨.start tag :: front, rest, tag, rfl, List.mem_cons_self, fun ending more => ?_⟩
      show tag.checkNamespaces.bind (fun _ => tag.checkAttributes.bind fun _ => _) = _
      rw [hnames, hattributes]
      exact hread ending more

end ChipSettings.Document
