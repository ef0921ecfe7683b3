import ChipSettings.Codec
import ChipSettings.Proofs.Document.Reading

/-! # The Round Trip of a Settings Document

  A profile that was written is read back.

  - `tokens_opening`: the tokens of a text that starts with a complete document, up to the
    end tag of the document element and whatever follows.
  - `read_opening`: such a text is read as the profile that was written. Nothing behind the
    end tag matters.
  - `deserialize_serialize`: the round trip, part by part.
-/

namespace ChipSettings.Document

open Text Number Xml

/-! ## Written Tokens Are Well Nested -/

theorem wellNested_nameTokens (name : String) : WellNested (nameTokens name) :=
  (WellNested.flat (t := blankToken 2) rfl).append
    (wellNested_elementTokens plainName_itemName name.toList)

theorem wellNested_layersTokens (kind : LayerKind) (names : List String) :
    WellNested (layersTokens kind names) := by
  unfold layersTokens
  split
  · exact .flat rfl
  · have hinside := (WellNested.flatMap wellNested_nameTokens names).append
      (.flat (t := blankToken 1) rfl)
    have helement := hinside.element ⟨kind.elementName.toList⟩
    rwa [(plainName_elementName kind).tag_name] at helement

theorem wellNested_slotTokens (p : Profile) (slot : Slot) : WellNested (slotTokens p slot) := by
  cases slot with
  | layers kind =>
    exact (WellNested.flat (t := blankToken 1) rfl).append (wellNested_layersTokens kind _)
  | number f =>
    exact (WellNested.flat (t := blankToken 1) rfl).append
      (wellNested_elementTokens (plainName_fieldName f) _)

theorem wellNested_bodyTokens (p : Profile) : WellNested (bodyTokens p) :=
  (WellNested.flatMap (wellNested_slotTokens p) Slot.all).append (.flat (t := blankToken 0) rfl)

/-- The tokens of a whole document close what they open. -/
theorem wellNested_document (p : Profile) :
    WellNested (openingTokens p ++ [.endTag rootName.toList]) := by
  have hroot := (wellNested_bodyTokens p).element ⟨rootName.toList⟩
  rw [plainName_rootName.tag_name] at hroot
  have hhead : WellNested [.instruction, blankToken 0] :=
    .of_isFlat (by intro t ht; simp at ht; rcases ht with rfl | rfl <;> rfl)
  exact hhead.append hroot

/-- The tokens of a text that starts with a complete document. -/
theorem tokens_opening (p : Profile) (rest : List Char) :
    tokens (opening p ++ closeTag rootName ++ rest) =
      emit (openingTokens p ++ [.endTag rootName.toList])
        (nest [] (scan rest).1 (scan rest).2) := by
  have hclose : closeTag rootName ++ rest = '<' :: ('/' :: (rootName.toList ++ ['>']) ++ rest) := rfl
  unfold tokens
  rw [List.append_assoc, hclose, scan_opening, ← hclose, scan_closeTag plainName_rootName, emit_emit]
  exact wellNested_document p [] (scan rest).1 (scan rest).2

/-! ## Reading a Complete Document -/

/-- A profile as it is read back: the line ends of its layer names normalized. -/
def readBack (p : Profile) : Profile :=
  { p with
    flowLayers := p.flowLayers.map normalizedName
    controlLayers := p.controlLayers.map normalizedName }

/-- Taking every part from a profile gives that profile, as it is read back. -/
theorem foldl_assign_all (p q : Profile) : Slot.all.foldl (assign p) q = readBack p := rfl

theorem nodup_slots : Slot.all.Nodup := by decide

/-- The document element of a written document is found. -/
theorem checkRoot_openingTokens (ending : Ending) (p : Profile) (more : List Token) :
    checkRoot ending (openingTokens p ++ more) = .ok () := by
  show (if Tag.localName ⟨rootName.toList⟩ = rootName.toList then Except.ok ()
    else Except.error (.wrongRoot (Tag.localName ⟨rootName.toList⟩))) = _
  rw [plainName_rootName.tag_localName, if_pos rfl]

/-- A text that starts with a complete document is read as the profile that was written. -/
theorem read_opening (p : Profile) (rest : List Char) :
    read (opening p ++ closeTag rootName ++ rest) = .ok (readBack p) := by
  have hmark : (opening p ++ closeTag rootName ++ rest).dropWhile (· == byteOrderMark) =
      opening p ++ closeTag rootName ++ rest := rfl
  unfold read
  rw [hmark, tokens_opening]
  generalize nest [] (scan rest).1 (scan rest).2 = after
  obtain ⟨more, ending⟩ := after
  show (do checkRoot ending _; readRoot ending _) = Except.ok (readBack p)
  rw [List.append_assoc, checkRoot_openingTokens]
  -- the declaration is gone, and the line feed behind it is blank
  have hroot := plainName_rootName
  have hevents : events (openingTokens p ++ ([.endTag rootName.toList] ++ more)) =
      blankEvent 0 :: .start ⟨rootName.toList⟩ ::
        events (Slot.all.flatMap (slotTokens p) ++
          blankToken 0 :: .endTag rootName.toList :: more) := by
    have hstart : events (.startTag ⟨rootName.toList⟩ false ::
        (bodyTokens p ++ ([.endTag rootName.toList] ++ more))) = _ := rfl
    refine (events_blank_start hstart 0).trans ?_
    rw [bodyTokens, List.append_assoc]
    rfl
  show readRoot ending _ = _
  rw [hevents]
  show (do Tag.checkNamespaces ⟨rootName.toList⟩; Tag.checkAttributes ⟨rootName.toList⟩;
           readSlots ending _ [] .default _) = _
  rw [hroot.tag_checkNamespaces, hroot.tag_checkAttributes]
  refine (readSlots_slotTokens ending _ rootName.toList p Slot.all more .default nodup_slots ?_).trans
    (congrArg Except.ok (foldl_assign_all p .default))
  intro slot _ hslot
  cases hslot

/-- Every written document is read. -/
theorem read_write (p : Profile) : read (write p) = .ok (readBack p) := by
  rw [write_eq]
  exact read_opening p ['\n']

/-! ## The Round Trip -/

theorem layers_readBack (p : Profile) (kind : LayerKind) :
    (readBack p).layers kind = (p.layers kind).map normalizedName := by
  cases kind <;> rfl

theorem real_readBack (p : Profile) (m : Measure) : (readBack p).real m = p.real m := by
  cases m <;> rfl

/-- Foreign line ends can be looked for in the characters of all names. -/
theorem isForeignLineEnd_of_all {names : List String}
    (h : (names.all fun name => name.toList.all fun c => !isForeignLineEnd c) = true) :
    ∀ name ∈ names, ∀ c ∈ name.toList, isForeignLineEnd c = false := by
  intro name hname c hc
  have hcharacters := List.all_eq_true.1 h name hname
  simpa using List.all_eq_true.1 hcharacters c hc

/-- A profile whose layer names have no foreign line ends is read back as it was. -/
theorem readBack_eq_self {p : Profile}
    (h : ∀ kind, ∀ name ∈ p.layers kind, ∀ c ∈ name.toList, isForeignLineEnd c = false) :
    readBack p = p := by
  refine Profile.ext_parts (fun kind => ?_) rfl (real_readBack p)
  rw [layers_readBack]
  refine (List.map_congr_left fun name hname => ?_).trans (List.map_id _)
  exact normalizedName_eq_self (h kind name hname)

/-- Every written document is a text that stands for the profile, as it is read back. -/
theorem deserialize_write (p : Profile) :
    Codec.xml.deserialize (String.ofList (write p)) = .ok (readBack p) := by
  show (read (String.ofList (write p)).toList).mapError _ = _
  rw [String.toList_ofList, read_write]
  rfl

/-- **Round trip**: every profile is written, and reading the text gives it back. The layer
    lists have the same names in the same order, each with its line ends normalized; a name
    without foreign line ends comes back exactly. All numbers come back exactly. -/
theorem deserialize_serialize (p : Profile) :
    ∃ text q, Codec.xml.serialize p = .ok text ∧ Codec.xml.deserialize text = .ok q ∧
      (∀ kind, (q.layers kind).length = (p.layers kind).length ∧
        ∀ (i : Nat) (name : String), (p.layers kind)[i]? = some name →
          (q.layers kind)[i]? = some (String.ofList (normalizeLineEnds name.toList)) ∧
          ((∀ c ∈ name.toList, isForeignLineEnd c = false) →
            (q.layers kind)[i]? = some name)) ∧
      q.punchBarNumber = p.punchBarNumber ∧ ∀ m, q.real m = p.real m := by
  refine ⟨String.ofList (write p), readBack p, rfl, ?_, ?_, rfl, real_readBack p⟩
  · show (read (String.ofList (write p)).toList).mapError _ = _
    rw [String.toList_ofList, read_write]
    rfl
  · intro kind
    rw [layers_readBack]
    refine ⟨List.length_map normalizedName, fun i name hname => ?_⟩
    rw [List.getElem?_map, hname]
    refine ⟨rfl, fun hplain => ?_⟩
    rw [Option.map_some, normalizedName_eq_self hplain]

end ChipSettings.Document
