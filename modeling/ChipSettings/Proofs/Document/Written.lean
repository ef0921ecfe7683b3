import ChipSettings.Proofs.Document.Content
import ChipSettings.Proofs.Number.ReadBack

/-! # Written Documents

  A written document piece by piece, and the tokens of each piece.

  - `opening` is a written document up to the end tag of the document element. All that
    follows is that tag and a line feed (`write_eq`).
  - `scan_opening`: the tokens of the opening are `openingTokens`, whatever markup follows.
-/

namespace ChipSettings.Document

open Text Number Xml

/-! ## Names -/

theorem plainName_rootName : PlainName rootName.toList := by decide

theorem plainName_itemName : PlainName itemName.toList := by decide

theorem plainName_elementName (kind : LayerKind) : PlainName kind.elementName.toList := by
  cases kind <;> decide

theorem plainName_fieldName (f : Field) : PlainName f.name.toList := by
  cases f with
  | punchBarNumber => decide
  | measure m => cases m <;> decide

theorem plainName_slotName (slot : Slot) : PlainName slot.name.toList := by
  cases slot with
  | layers kind => exact plainName_elementName kind
  | number f => exact plainName_fieldName f

/-- A slot is found by its name. -/
theorem ofName?_name (slot : Slot) : Slot.ofName? slot.name.toList = some slot := by
  cases slot with
  | layers kind => cases kind <;> decide
  | number f => cases f with
    | punchBarNumber => decide
    | measure m => cases m <;> decide

/-! ## Lines -/

/-- The line feed of each line may as well stand in front of the next one. -/
theorem lineFeed_append_flatMap {α : Type} (line : α → List Char) (as : List α) :
    '\n' :: as.flatMap (fun a => line a ++ ['\n']) =
      as.flatMap (fun a => '\n' :: line a) ++ ['\n'] := by
  induction as with
  | nil => rfl
  | cons a as ih =>
    rw [List.flatMap_cons, List.flatMap_cons, List.append_assoc, List.append_assoc, ← ih]
    simp

/-- A layer list, without the blanks around it. -/
def layersText (kind : LayerKind) (names : List String) : List Char :=
  if names.isEmpty then emptyTag kind.elementName
  else
    openTag kind.elementName ++
      names.flatMap (fun name => '\n' :: (indent 2 ++ elementText itemName name.toList)) ++
      '\n' :: indent 1 ++ closeTag kind.elementName

/-- A slot, without the blanks around it. -/
def slotText (p : Profile) : Slot → List Char
  | .layers kind => layersText kind (p.layers kind)
  | .number f => elementText f.name (f.read p).toList

theorem slotElement_eq (p : Profile) (slot : Slot) :
    slotElement p slot = indent 1 ++ slotText p slot ++ ['\n'] := by
  cases slot with
  | number f => rfl
  | layers kind =>
    show layersElement kind (p.layers kind) = indent 1 ++ layersText kind (p.layers kind) ++ ['\n']
    unfold layersElement layersText
    split
    · rfl
    · have hlines := lineFeed_append_flatMap
        (fun name => indent 2 ++ elementText itemName name.toList) (p.layers kind)
      have hline (name : String) : textElement 2 itemName name.toList =
          indent 2 ++ elementText itemName name.toList ++ ['\n'] := rfl
      simp only [hline]
      rw [List.append_assoc (indent 1 ++ openTag kind.elementName) ['\n'], List.singleton_append,
        hlines]
      simp

/-- A written document up to the end tag of its document element. -/
def opening (p : Profile) : List Char :=
  declaration.toList ++ ['\n'] ++ openTag rootName ++
    Slot.all.flatMap (fun slot => '\n' :: (indent 1 ++ slotText p slot)) ++ ['\n']

/-- A written document is its opening, the end tag and a line feed. -/
theorem write_eq (p : Profile) : write p = opening p ++ closeTag rootName ++ ['\n'] := by
  have hlines := lineFeed_append_flatMap (fun slot => indent 1 ++ slotText p slot) Slot.all
  have hslots : slotElement p = fun slot => indent 1 ++ slotText p slot ++ ['\n'] :=
    funext (slotElement_eq p)
  unfold write opening
  rw [hslots, List.append_assoc (declaration.toList ++ ['\n'] ++ openTag rootName) ['\n'],
    List.singleton_append, hlines]
  simp

/-! ## Tokens of a Written Document -/

/-- The blanks between two elements. -/
def blankToken (depth : Nat) : Token := .text ('\n' :: indent depth)

/-- The tokens of a layer name on its line. -/
def nameTokens (name : String) : List Token :=
  blankToken 2 :: elementTokens itemName name.toList

/-- The tokens of a layer list. -/
def layersTokens (kind : LayerKind) (names : List String) : List Token :=
  if names.isEmpty then [.startTag ⟨kind.elementName.toList⟩ true]
  else
    .startTag ⟨kind.elementName.toList⟩ false ::
      (names.flatMap nameTokens ++ [blankToken 1] ++ [.endTag kind.elementName.toList])

/-- The tokens of a slot on its lines. -/
def slotTokens (p : Profile) : Slot → List Token
  | .layers kind => blankToken 1 :: layersTokens kind (p.layers kind)
  | .number f => blankToken 1 :: elementTokens f.name (f.read p).toList

/-- The tokens inside the document element. -/
def bodyTokens (p : Profile) : List Token :=
  Slot.all.flatMap (slotTokens p) ++ [blankToken 0]

/-- The tokens of the opening of a document. -/
def openingTokens (p : Profile) : List Token :=
  .instruction :: blankToken 0 :: .startTag ⟨rootName.toList⟩ false :: bodyTokens p

theorem isMarkupSpace_of_mem_blank {depth : Nat} {c : Char} (h : c ∈ '\n' :: indent depth) :
    isMarkupSpace c = true := by
  rcases List.mem_cons.1 h with rfl | h
  · decide
  · rw [List.eq_of_mem_replicate h]
    decide

/-- Blanks in front of markup are one token. -/
theorem scan_blank (depth : Nat) {rest : List Char} (h : ∃ cs, rest = '<' :: cs) :
    scan ('\n' :: (indent depth ++ rest)) = emit [blankToken depth] (scan rest) := by
  obtain ⟨cs, rfl⟩ := h
  refine scan_text (List.cons_ne_nil _ (indent depth)) ?_ ?_
  · intro c hc
    rcases List.mem_cons.1 hc with rfl | hc
    · decide
    · rw [List.eq_of_mem_replicate hc]
      decide
  · intro c hc
    obtain rfl : '<' = c := by simpa using hc
    decide

/-- The tokens of pieces that stand one after the other. -/
theorem scan_flatMap {α : Type} {text : α → List Char} {ts : α → List Token}
    (h : ∀ a rest, scan (text a ++ rest) = emit (ts a) (scan rest)) (as : List α)
    (rest : List Char) : scan (as.flatMap text ++ rest) = emit (as.flatMap ts) (scan rest) := by
  induction as with
  | nil => rfl
  | cons a as ih =>
    rw [List.flatMap_cons, List.flatMap_cons, List.append_assoc, h, ih, emit_emit]

/-- Markup starts with its bracket. -/
theorem exists_closeTag_eq (name : String) (rest : List Char) :
    ∃ cs, closeTag name ++ rest = '<' :: cs := ⟨_, rfl⟩

theorem exists_openTag_eq (name : String) (rest : List Char) :
    ∃ cs, openTag name ++ rest = '<' :: cs := ⟨_, rfl⟩

theorem exists_elementText_eq (name : String) (content rest : List Char) :
    ∃ cs, elementText name content ++ rest = '<' :: cs := by
  unfold elementText
  split
  · exact ⟨_, rfl⟩
  · exact ⟨_, rfl⟩

theorem exists_layersText_eq (kind : LayerKind) (names : List String) (rest : List Char) :
    ∃ cs, layersText kind names ++ rest = '<' :: cs := by
  unfold layersText
  split
  · exact ⟨_, rfl⟩
  · exact ⟨_, rfl⟩

theorem scan_name (name : String) (rest : List Char) :
    scan (('\n' :: (indent 2 ++ elementText itemName name.toList)) ++ rest) =
      emit (nameTokens name) (scan rest) := by
  show scan ('\n' :: (indent 2 ++ elementText itemName name.toList ++ rest)) = _
  rw [List.append_assoc, scan_blank 2 (exists_elementText_eq _ _ _),
    scan_elementText plainName_itemName, emit_emit]
  rfl

theorem scan_layersText (kind : LayerKind) (names : List String) (rest : List Char) :
    scan (layersText kind names ++ rest) = emit (layersTokens kind names) (scan rest) := by
  have hkind := plainName_elementName kind
  unfold layersText layersTokens
  split
  · exact scan_emptyTag hkind rest
  · have hclose : '\n' :: indent 1 ++ closeTag kind.elementName ++ rest =
        '\n' :: (indent 1 ++ (closeTag kind.elementName ++ rest)) := by simp
    rw [List.append_assoc _ ('\n' :: indent 1), List.append_assoc, List.append_assoc,
      scan_openTag hkind, scan_flatMap scan_name, hclose, scan_blank 1 (exists_closeTag_eq _ _),
      scan_closeTag hkind, emit_emit, emit_emit, emit_emit]
    simp

theorem scan_slot (p : Profile) (slot : Slot) (rest : List Char) :
    scan (('\n' :: (indent 1 ++ slotText p slot)) ++ rest) =
      emit (slotTokens p slot) (scan rest) := by
  show scan ('\n' :: (indent 1 ++ slotText p slot ++ rest)) = _
  rw [List.append_assoc]
  cases slot with
  | number f =>
    rw [slotText, scan_blank 1 (exists_elementText_eq _ _ _),
      scan_elementText (plainName_fieldName f), emit_emit]
    rfl
  | layers kind =>
    rw [slotText, scan_blank 1 (exists_layersText_eq _ _ _), scan_layersText, emit_emit]
    rfl

/-- The declaration is an instruction. -/
theorem scan_declaration (rest : List Char) :
    scan (declaration.toList ++ rest) = emit [.instruction] (scan rest) := by
  have hend : ¬ ['?', '>'] <:+: '?' :: "xml version=\"1.0\" encoding=\"utf-8\"".toList := fun h =>
    absurd (h.subset (show '>' ∈ ['?', '>'] by decide)) (by decide)
  have hrender : declaration.toList =
      '<' :: '?' :: ("xml version=\"1.0\" encoding=\"utf-8\"".toList ++ ['?', '>']) := by decide
  rw [hrender]
  exact (Piece.instruction _ hend).scan_piece rest

/-- The tokens of the opening of a document, in front of markup. -/
theorem scan_opening (p : Profile) (rest : List Char) :
    scan (opening p ++ '<' :: rest) = emit (openingTokens p) (scan ('<' :: rest)) := by
  have hnewline {cs : List Char} (h : ∃ ds, cs = '<' :: ds) :
      scan (['\n'] ++ cs) = emit [blankToken 0] (scan cs) := scan_blank 0 h
  unfold opening
  rw [List.append_assoc, List.append_assoc, List.append_assoc, List.append_assoc,
    scan_declaration, hnewline (exists_openTag_eq _ _), scan_openTag plainName_rootName,
    scan_flatMap (scan_slot p), hnewline ⟨rest, rfl⟩]
  simp only [emit_emit]
  rfl

end ChipSettings.Document
