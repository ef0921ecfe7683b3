import ChipSettings.Proofs.Document.LineEnds
import ChipSettings.Proofs.Document.RoundTrip
import ChipSettings.Proofs.Document.Tolerant

/-! # Normal Form of a Settings Document

  What happens to a document that is loaded, saved, loaded again and saved again.

  - `plainLines_write_iff`: a written document has foreign line ends where the layer names have
    them, and nowhere else.
  - `write_readBack_eq_iff`: so a profile that was written and read back is written as before if
    and only if its layer names have plain line ends.
  - `rewritten_document`: the same for every text that is read. From the second time on, loading
    and saving changes nothing.
-/

namespace ChipSettings.Document

open Text Number Xml

/-! ## Line Ends of What Is Written -/

section Pieces

variable {a b cs : List Char}

theorem plainLines_append_iff : PlainLines (a ++ b) ↔ PlainLines a ∧ PlainLines b :=
  List.forall_mem_append

theorem plainLines_flatMap_iff {α : Type} {text : α → List Char} {as : List α} :
    PlainLines (as.flatMap text) ↔ ∀ x ∈ as, PlainLines (text x) :=
  List.forall_mem_flatMap

/-- What is escaped is no line end, and neither is what stands for it. -/
theorem plainLines_escape_iff : PlainLines (escape cs) ↔ PlainLines cs := by
  have hmarkup {c : Char} {entity : List Char} (hentity : PlainLines entity)
      (hc : isForeignLineEnd c = false) : PlainLines entity ↔ isForeignLineEnd c = false :=
    iff_of_true hentity hc
  have hescape (c : Char) : PlainLines (escapeChar c) ↔ isForeignLineEnd c = false := by
    unfold escapeChar
    split
    · next h => rw [beq_iff_eq.1 h]; exact hmarkup (by decide) (by decide)
    split
    · next h => rw [beq_iff_eq.1 h]; exact hmarkup (by decide) (by decide)
    split
    · next h => rw [beq_iff_eq.1 h]; exact hmarkup (by decide) (by decide)
    · exact List.forall_mem_singleton
  rw [escape, plainLines_flatMap_iff]
  exact forall₂_congr fun c _ => hescape c

theorem plainLines_indent (depth : Nat) : PlainLines (indent depth) := by
  intro c hc
  rw [List.eq_of_mem_replicate hc]
  decide

end Pieces

section Tags

variable {name : String} (hname : PlainLines name.toList)
include hname

theorem plainLines_openTag : PlainLines (openTag name) :=
  plainLines_append_iff.2 ⟨(by decide : PlainLines ['<']),
    plainLines_append_iff.2 ⟨hname, by decide⟩⟩

theorem plainLines_closeTag : PlainLines (closeTag name) :=
  plainLines_append_iff.2 ⟨(by decide : PlainLines ['<', '/']),
    plainLines_append_iff.2 ⟨hname, by decide⟩⟩

theorem plainLines_emptyTag : PlainLines (emptyTag name) :=
  plainLines_append_iff.2 ⟨(by decide : PlainLines ['<']),
    plainLines_append_iff.2 ⟨hname, by decide⟩⟩

/-- An element has the line ends of its text. -/
theorem plainLines_textElement_iff (depth : Nat) (content : List Char) :
    PlainLines (textElement depth name content) ↔ PlainLines content := by
  have hindent := plainLines_indent depth
  have hline : PlainLines ['\n'] := by decide
  unfold textElement
  split
  · next h =>
    rw [List.isEmpty_iff.1 h]
    refine iff_of_true ?_ (by decide)
    simp only [plainLines_append_iff]
    exact ⟨⟨hindent, plainLines_emptyTag hname⟩, hline⟩
  · simp only [plainLines_append_iff, plainLines_escape_iff]
    constructor
    · rintro ⟨⟨-, ⟨-, hcontent⟩, -⟩, -⟩
      exact hcontent
    · intro hcontent
      exact ⟨⟨hindent, ⟨plainLines_openTag hname, hcontent⟩, plainLines_closeTag hname⟩, hline⟩

end Tags

/-- A layer list has the line ends of its names. -/
theorem plainLines_layersElement_iff (kind : LayerKind) (names : List String) :
    PlainLines (layersElement kind names) ↔ ∀ name ∈ names, PlainLines name.toList := by
  have hkind : PlainLines kind.elementName.toList := by cases kind <;> decide
  have hindent := plainLines_indent 1
  have hline : PlainLines ['\n'] := by decide
  unfold layersElement
  split
  · next h =>
    rw [List.isEmpty_iff.1 h]
    refine iff_of_true ?_ fun _ hname => absurd hname List.not_mem_nil
    simp only [plainLines_append_iff]
    exact ⟨⟨hindent, plainLines_emptyTag hkind⟩, hline⟩
  · have hitem : PlainLines itemName.toList := by decide
    simp only [plainLines_append_iff, plainLines_flatMap_iff, plainLines_textElement_iff hitem]
    constructor
    · rintro ⟨⟨⟨⟨-, hnames⟩, -⟩, -⟩, -⟩
      exact hnames
    · intro hnames
      exact ⟨⟨⟨⟨⟨⟨hindent, plainLines_openTag hkind⟩, hline⟩, hnames⟩, hindent⟩,
        plainLines_closeTag hkind⟩, hline⟩

/-- Numbers are written without line ends. -/
theorem plainLines_numberElement (p : Profile) (f : Field) :
    PlainLines (slotElement p (.number f)) := by
  have hname : PlainLines f.name.toList := by
    cases f with
    | punchBarNumber => decide
    | measure m => cases m <;> decide
  exact (plainLines_textElement_iff hname 1 _).2 fun c hc => isForeignLineEnd_of_mem_read hc

/-- A written document has foreign line ends where the layer names have them, and nowhere else. -/
theorem plainLines_write_iff (p : Profile) : PlainLines (write p) ↔ PlainNames p := by
  have hdeclaration : PlainLines declaration.toList := by decide
  have hroot : PlainLines rootName.toList := by decide
  have hline : PlainLines ['\n'] := by decide
  unfold write
  simp only [plainLines_append_iff, plainLines_flatMap_iff]
  -- of all pieces only the two layer lists can have foreign line ends
  constructor
  · rintro ⟨⟨⟨-, hslots⟩, -⟩, -⟩ kind
    refine (plainLines_layersElement_iff kind _).1 (hslots (.layers kind) ?_)
    cases kind <;> decide
  · intro hnames
    refine ⟨⟨⟨⟨⟨⟨hdeclaration, hline⟩, plainLines_openTag hroot⟩, hline⟩, fun slot _ => ?_⟩,
      plainLines_closeTag hroot⟩, hline⟩
    cases slot with
    | layers kind => exact (plainLines_layersElement_iff kind _).2 (hnames kind)
    | number f => exact plainLines_numberElement p f

/-! ## Writing What Was Read Back -/

theorem plainNames_readBack (p : Profile) : PlainNames (readBack p) := by
  intro kind name hname
  rw [layers_readBack] at hname
  obtain ⟨original, -, rfl⟩ := List.mem_map.1 hname
  rw [normalizedName, String.toList_ofList]
  exact plainLines_normalizeLineEnds original.toList

/-- What was read back once is read back as it is. -/
theorem readBack_readBack (p : Profile) : readBack (readBack p) = readBack p :=
  readBack_eq_self (plainNames_readBack p)

/-- A profile that was read back is written as before if its names have plain line ends, and
    only then. -/
theorem write_readBack_eq_iff (p : Profile) : write (readBack p) = write p ↔ PlainNames p := by
  constructor
  · intro h
    rw [← plainLines_write_iff, ← h, plainLines_write_iff]
    exact plainNames_readBack p
  · intro h
    rw [readBack_eq_self h]

/-- **Normal form**: a text that is read is written as a document `x`, which is read again. What
    is read is written as `x` again if the layer names have plain line ends, which they have
    unless a reference of the text stands for another one, and only then. In any case the
    document `y` that is written the second time is final: it is read as the same profile as
    `x`, which is written as `y`. -/
theorem rewritten_document (text : String) (p : Profile)
    (h : Codec.xml.deserialize text = .ok p) :
    ∃ x q y, Codec.xml.serialize p = .ok x ∧ Codec.xml.deserialize x = .ok q ∧
      Codec.xml.serialize q = .ok y ∧
      (y = x ↔ PlainNames p) ∧
      (PlainReferences (tokens (text.toList.dropWhile (· == byteOrderMark))).1 → y = x) ∧
      Codec.xml.deserialize y = .ok q := by
  -- `y` is what is written of `readBack p`, which is read back as it is
  have hsame : String.ofList (write (readBack p)) = String.ofList (write p) ↔ PlainNames p := by
    rw [String.ofList_inj, write_readBack_eq_iff]
  refine ⟨String.ofList (write p), readBack p, String.ofList (write (readBack p)), rfl,
    deserialize_write p, rfl, hsame, fun hreferences => hsame.2 ?_, ?_⟩
  · exact plainNames_read hreferences (eq_ok_of_mapError_eq_ok h)
  · rw [deserialize_write, readBack_readBack]

/-! ## References and Line Ends -/

/-- A layer list of one name, in which a reference stands between the letters. -/
def referencePart (name : List Char) (c : Char) (h : resolve name = .ok c) : Part :=
  .layers .flow (.around (plainName_elementName .flow).tagText
    (.next (lineGap 2) ⟨.around plainName_itemName.tagText
      (.next ⟨"a".toList, by decide⟩ (.reference name c h) (.last ⟨"b".toList, by decide⟩)) .none,
      rfl⟩ (.last (lineGap 1))) .none) rfl

/-- A document with such a list. -/
def referenceDocument (name : List Char) (c : Char) (h : resolve name = .ok c) : SettingsText :=
  documentOf <| .next (lineGap 1) (referencePart name c h) <| .last (lineGap 0)

theorem overrides_referenceDocument (name : List Char) (c : Char) (h : resolve name = .ok c) :
    Overrides (referenceDocument name c h).parts .default
      { Profile.default with flowLayers := [String.ofList ['a', c, 'b']] } where
  holds part hpart := by
    obtain rfl : part = referencePart name c h := List.mem_singleton.1 hpart
    rfl
  same slot hslot := by
    have hslots : slots (referenceDocument name c h).parts = [.layers .flow] := rfl
    rw [hslots, List.mem_singleton] at hslot
    exact Slot.same_setLayers hslot .default _

set_option maxRecDepth 4000 in
/-- A reference to a markup character: written and read back, the profile is written as it was. -/
theorem rewritten_document_markup :
    ∃ p x q, Codec.xml.deserialize "<!-- settings -->
<Settings xmlns:xsi=\"http://www.w3.org/2001/XMLSchema-instance\">
  <FlowLayers>
    <string>a&amp;b</string>
  </FlowLayers>
</Settings>" = .ok p ∧ p.flowLayers = ["a&b"] ∧ Codec.xml.serialize p = .ok x ∧
      Codec.xml.deserialize x = .ok q ∧ Codec.xml.serialize q = .ok x := by
  have hoverrides := overrides_referenceDocument "amp".toList '&' rfl
  have hp := deserialize_of_overrides (by decide) hoverrides
  obtain ⟨x, q, y, hx, hq, hy, hsame, -, -⟩ := rewritten_document _ _ hp
  have hplain : PlainNames { Profile.default with flowLayers := ["a&b"] } :=
    plainNames_default.setLayers (by decide) .flow
  rw [hsame.2 hplain] at hy
  exact ⟨_, x, q, hp, rfl, hx, hq, hy⟩

set_option maxRecDepth 4000 in
/-- A carriage return that was brought in by a reference is written as it is, and read back as a
    line feed: the document changes when it is loaded and saved again. -/
theorem rewritten_carriage_return :
    ∃ p x q y, Codec.xml.deserialize "<!-- settings -->
<Settings xmlns:xsi=\"http://www.w3.org/2001/XMLSchema-instance\">
  <FlowLayers>
    <string>a&#13;b</string>
  </FlowLayers>
</Settings>" = .ok p ∧ Codec.xml.serialize p = .ok x ∧ Codec.xml.deserialize x = .ok q ∧
      Codec.xml.serialize q = .ok y ∧ y ≠ x := by
  have hp := deserialize_of_overrides (by decide)
    (overrides_referenceDocument "#13".toList '\r' rfl)
  refine ⟨_, _, _, _, hp, rfl, deserialize_write _, rfl, fun h => ?_⟩
  have hplain := (write_readBack_eq_iff _).1 (String.ofList_inj.1 h)
  exact absurd (hplain .flow "a\rb" List.mem_cons_self) (by decide)

end ChipSettings.Document
