import ChipSettings.Proofs.Document.RoundTrip
import ChipSettings.Proofs.Store.Files
import ChipSettings.Proofs.Xml.Inside
import ChipSettings.Store

/-! # Cut Documents

  A written document that was cut off is never taken for a complete one.

  - `closes_readSlots`, `readRoot_ne_ok`: the reader of the document element reads on to its
    end tag. Events that stay inside the element are not read as a profile, so that no cut
    leaves a profile with some of its values missing.
  - `read_cut`: a document that is cut before the end of its end tag is not read.
  - `loadCurrent_cut`: the same for the bytes of the fixed file of a store.
-/

namespace ChipSettings

open Files Xml

namespace Document

/-! ## The Readers Close Their Elements -/

variable {ending : Ending} {owner : List Char} {es rest : List Event}

/-- Reading the names of a layer list closes it. -/
theorem closes_readNames {progress : Progress} {names : List String}
    (h : readNames ending owner progress es = .ok (names, rest)) : Closes es rest := by
  -- by induction on the length, since an element that is read or skipped may be of any length
  induction hn : es.length using Nat.strongRecOn generalizing es progress names with
  | ind n ih =>
    subst hn
    rw [readNames_eq] at h
    obtain ⟨⟨item, es'⟩, hd, h⟩ := exists_of_bind_eq_ok h
    have hlt := length_deliver hd
    cases item with
    | finish => cases h; exact closes_of_finish hd
    | text content => exact closes_of_text hd (ih _ hlt h rfl)
    | start tag =>
      simp only at h
      cases hrole : progress.role tag with
      | stray => rw [hrole] at h; cases h
      | item =>
        rw [hrole] at h
        obtain ⟨⟨name, es''⟩, ht, h⟩ := exists_of_bind_eq_ok h
        obtain ⟨⟨names', rest'⟩, hr, hresult⟩ := exists_of_map_eq_ok h
        cases hresult
        have hlt' := Nat.lt_trans (length_readText ht) hlt
        exact closes_of_start hd (closes_readText ht) (ih _ hlt' hr rfl)
      | unknown =>
        rw [hrole] at h
        obtain ⟨es'', ht, h⟩ := exists_of_bind_eq_ok h
        have hlt' := Nat.lt_trans (length_skip ht) hlt
        exact closes_of_start hd (closes_skip ht) (ih _ hlt' h rfl)

/-- Reading a slot closes its element. -/
theorem closes_readSlot {slot : Slot} {tag : Tag} {p q : Profile}
    (h : readSlot ending slot tag p es = .ok (q, rest)) : Closes es rest := by
  cases slot with
  | layers kind =>
    obtain ⟨u, -, h⟩ := exists_of_bind_eq_ok h
    obtain ⟨⟨names, es'⟩, hr, h⟩ := exists_of_bind_eq_ok h
    cases h
    exact closes_readNames hr
  | number field =>
    obtain ⟨⟨content, es'⟩, hr, h⟩ := exists_of_bind_eq_ok h
    obtain ⟨q', -, h⟩ := exists_of_bind_eq_ok h
    cases h
    exact closes_readText hr

/-- Reading the children of the document element closes it. -/
theorem closes_readSlots {seen : List Slot} {p q : Profile}
    (h : readSlots ending owner seen p es = .ok q) : ∃ rest, Closes es rest := by
  induction hn : es.length using Nat.strongRecOn generalizing es seen p with
  | ind n ih =>
    subst hn
    rw [readSlots_eq] at h
    obtain ⟨⟨item, es'⟩, hd, h⟩ := exists_of_bind_eq_ok h
    have hlt := length_deliver hd
    cases item with
    | finish => exact ⟨es', closes_of_finish hd⟩
    | text content =>
      obtain ⟨rest, hrest⟩ := ih _ hlt h rfl
      exact ⟨rest, closes_of_text hd hrest⟩
    | start tag =>
      simp only at h
      cases hslot : Slot.ofName? tag.localName with
      | none =>
        rw [hslot] at h
        obtain ⟨es'', ht, h⟩ := exists_of_bind_eq_ok h
        obtain ⟨rest, hrest⟩ := ih _ (Nat.lt_trans (length_skip ht) hlt) h rfl
        exact ⟨rest, closes_of_start hd (closes_skip ht) hrest⟩
      | some slot =>
        rw [hslot] at h
        simp only at h
        by_cases hseen : slot ∈ seen
        · rw [if_pos hseen] at h
          cases h
        · rw [if_neg hseen] at h
          obtain ⟨⟨p', es''⟩, ht, h⟩ := exists_of_bind_eq_ok h
          obtain ⟨rest, hrest⟩ := ih _ (Nat.lt_trans (length_readSlot ht) hlt) h rfl
          exact ⟨rest, closes_of_start hd (closes_readSlot ht) hrest⟩

/-- The brackets of a document whose document element is not closed. -/
def RootUnclosed : List Bracket → Prop
  | [] => True
  | .opens :: bs => StaysInside 0 bs
  | .closes :: _ => False

/-- Less of a document whose document element is not closed is such a document. -/
theorem RootUnclosed.of_append {as bs : List Bracket} (h : RootUnclosed (as ++ bs)) :
    RootUnclosed as := by
  cases as with
  | nil => trivial
  | cons a as =>
    cases a with
    | opens => exact StaysInside.of_append h
    | closes => exact h

/-- A document whose document element is not closed is not read. -/
theorem readRoot_ne_ok (h : RootUnclosed (eventBrackets es)) (p : Profile) :
    readRoot ending es ≠ .ok p := by
  intro hok
  induction es with
  | nil => cases hok
  | cons e es ih =>
    cases e with
    | doctype => exact ih h hok
    | finish => cases hok
    | text content =>
      cases content with
      | error e => cases hok
      | ok content =>
        unfold readRoot at hok
        split at hok
        · exact ih h hok
        · cases hok
    | start tag =>
      obtain ⟨u, -, hok⟩ := exists_of_bind_eq_ok hok
      obtain ⟨u', -, hok⟩ := exists_of_bind_eq_ok hok
      obtain ⟨rest, hrest⟩ := closes_readSlots hok
      exact hrest.not_staysInside h

/-! ## Cut Texts -/

/-- All of a written document but the last character of its end tag. -/
def unclosed (p : Profile) : List Char := opening p ++ '<' :: '/' :: rootName.toList

theorem scan_unclosed (p : Profile) : (scan (unclosed p)).1 = openingTokens p := by
  have hend : scan ('<' :: '/' :: rootName.toList) = ([], .broken .unclosedTag) :=
    scan_of_error rfl
  rw [unclosed, scan_opening, hend]
  exact List.append_nil _

/-- The opening of a document opens the document element and stays inside it. -/
theorem rootUnclosed_openingTokens (p : Profile) : RootUnclosed (brackets (openingTokens p)) := by
  have hnest : (nest [] (bodyTokens p) .complete).1 = bodyTokens p := by
    have := wellNested_bodyTokens p [] [] .complete
    rw [List.append_nil] at this
    rw [this]
    exact List.append_nil _
  have := staysInside_nest [] (bodyTokens p) .complete
  rw [hnest] at this
  exact this

/-- A document that is cut before the end of its end tag is not read. -/
theorem read_cut {p : Profile} {cs : List Char} (h : cs <+: unclosed p) (q : Profile) :
    read cs ≠ .ok q := by
  intro hok
  obtain ⟨more, hmore⟩ := h
  -- the document does not start with a byte order mark, and neither does a part of it
  have hmark : cs.dropWhile (· == byteOrderMark) = cs := by
    cases cs with
    | nil => rfl
    | cons c cs =>
      obtain rfl : c = '<' := (List.cons.inj hmore).1
      rfl
  have hscan : brackets (scan cs).1 <+: brackets (openingTokens p) := by
    rw [← scan_unclosed, ← hmore]
    exact brackets_scan_append cs more
  have htokens : brackets (tokens cs).1 <+: brackets (scan cs).1 :=
    prefix_brackets (prefix_nest [] (scan cs).1 (scan cs).2)
  have hunclosed : RootUnclosed (eventBrackets (events (tokens cs).1)) := by
    rw [eventBrackets_events]
    obtain ⟨bs, hbs⟩ := htokens.trans hscan
    have hroot := rootUnclosed_openingTokens p
    rw [← hbs] at hroot
    exact hroot.of_append
  unfold read at hok
  rw [hmark] at hok
  obtain ⟨u, -, hok⟩ := exists_of_bind_eq_ok hok
  exact readRoot_ne_ok hunclosed q hok

/-- A document that lacks its last character, or more, is not read, unless it has its whole
    end tag. -/
theorem read_part {p : Profile} {cs : List Char} (h : cs <+: write p) (hne : cs ≠ write p) :
    (∀ q, read cs ≠ .ok q) ∨ cs = opening p ++ closeTag rootName := by
  have hclose : opening p ++ closeTag rootName = unclosed p ++ ['>'] := by
    simp [unclosed, closeTag]
  rw [write_eq, List.prefix_concat_iff] at h
  rcases h with h | h
  · exact absurd (by rw [h, write_eq]) hne
  · rw [hclose, List.prefix_concat_iff] at h
    rcases h with h | h
    · exact .inr (by rw [h, hclose])
    · exact .inl (read_cut h)

end Document

/-! ## Cut Files -/

open Document

/-- Bytes that end inside a character of the text they were cut from. -/
def EndsInsideCharacter (text : String) (b : ByteArray) : Prop :=
  ∀ cs, cs <+: text.toList → b ≠ (String.ofList cs).toUTF8

/-- Bytes that were cut from a text end inside a character, or are a part of the text. -/
theorem isPrefix_of_cut {text : String} {b rest : ByteArray} (hcut : text.toUTF8 = b ++ rest) :
    (String.fromUTF8? b = none ∧ EndsInsideCharacter text b) ∨
      ∃ part, String.fromUTF8? b = some part ∧ part.toList <+: text.toList := by
  cases hb : String.fromUTF8? b with
  | none =>
    refine .inl ⟨rfl, fun cs _ hcs => ?_⟩
    rw [fromUTF8?_eq_some_iff.2 hcs.symm] at hb
    cases hb
  | some part =>
    refine .inr ⟨part, rfl, ?_⟩
    obtain rfl := fromUTF8?_eq_some_iff.1 hb
    apply List.isPrefix_of_utf8Encode_append_eq_utf8Encode rest
    rw [← String.toByteArray_ofList, ← String.toByteArray_ofList, String.ofList_toList,
      String.ofList_toList]
    exact hcut.symm

namespace Store

/-- **A cut file is never taken for a complete one**: if the fixed file holds a proper part
    of the bytes of a settings document, loading it fails, or the part has the whole end tag
    and the profile that was written is loaded. Without an error to show, it is either this
    profile or the defaults that are taken. -/
theorem loadCurrent_cut (p : Profile) (path : Path) (t : FileTree) (text : String)
    (b rest : ByteArray) (hwritten : Codec.xml.serialize p = .ok text)
    (hcut : text.toUTF8 = b ++ rest) (hproper : rest ≠ ByteArray.empty)
    (hfile : t.find? path = some (.file b)) :
    ∃ full, Codec.xml.deserialize text = .ok full ∧
      ((∀ kind, full.layers kind = (p.layers kind).map normalizedName) ∧
        full.punchBarNumber = p.punchBarNumber ∧ ∀ m, full.real m = p.real m) ∧
      ((∃ reason, (atPath path).loadCurrent t = .error (.deserialization reason)) ∨
        (EndsInsideCharacter text b ∧
          (atPath path).loadCurrent t = .error (.io path .notText)) ∨
        ((∃ before, b = before ++ "</Settings>".toUTF8) ∧
          (atPath path).loadCurrent t = .ok full)) ∧
      ((atPath path).loadOrDefault t = full ∨ (atPath path).loadOrDefault t = .default) := by
  obtain rfl : String.ofList (write p) = text := Except.ok.inj hwritten
  have hfull := deserialize_write p
  have hfixed : t.find? (atPath path).currentPath = some (.file b) := hfile
  have hload := loadCurrent_of_file hfixed
  refine ⟨readBack p, hfull, ⟨layers_readBack p, rfl, real_readBack p⟩, ?_⟩
  rcases isPrefix_of_cut hcut with ⟨hnone, hinside⟩ | ⟨part, hpart, hpiece⟩
  · rw [hnone] at hload
    exact ⟨.inr (.inl ⟨hinside, hload⟩), .inr (by rw [loadOrDefault, hload])⟩
  · rw [hpart] at hload
    obtain rfl := fromUTF8?_eq_some_iff.1 hpart
    rw [String.toList_ofList] at hpiece
    have hne : part.toList ≠ write p := by
      intro heq
      rw [← heq, String.ofList_toList] at hcut
      have hsize := congrArg ByteArray.size hcut
      rw [ByteArray.size_append] at hsize
      exact hproper (ByteArray.size_eq_zero_iff.1 (by omega))
    rcases read_part hpiece hne with hread | hclosed
    · -- the document element is not closed
      have hfail : ∃ reason, (atPath path).loadCurrent t = .error (.deserialization reason) := by
        rw [hload]
        show ∃ reason, (read part.toList).mapError _ = _
        cases hr : read part.toList with
        | error e => exact ⟨e.message, rfl⟩
        | ok q => exact absurd hr (hread q)
      obtain ⟨reason, hreason⟩ := hfail
      exact ⟨.inl ⟨reason, hreason⟩, .inr (by rw [loadOrDefault, hreason])⟩
    · -- only the line feed behind the end tag is missing
      have hok : (atPath path).loadCurrent t = .ok (readBack p) := by
        rw [hload]
        show (read part.toList).mapError _ = _
        have := read_opening p []
        rw [List.append_nil, ← hclosed] at this
        rw [this]
        rfl
      refine ⟨.inr (.inr ⟨⟨(String.ofList (opening p)).toUTF8, ?_⟩, hok⟩), .inl ?_⟩
      · rw [show "</Settings>" = String.ofList (closeTag rootName) by decide,
          String.toUTF8_eq_toByteArray, String.toUTF8_eq_toByteArray, String.toUTF8_eq_toByteArray,
          ← String.toByteArray_append, ← String.ofList_append, ← hclosed, String.ofList_toList]
      · rw [loadOrDefault, hok]

/-- The tree of a directory with one file in it. -/
def treeOfFile (name : List Char) (content : ByteArray) : FileTree :=
  FileTree.empty.put name [] (.file content) rfl fun h => by simp [FileTree.empty] at h

/-- A profile with a layer and a bar count of its own, cut behind the element of the layers: the
    file is refused, and the layers are the defaults then, like all the rest. -/
theorem loadOrDefault_cut_elements :
    let p : Profile := { Profile.default with flowLayers := ["Top"], punchBarNumber := 5 }
    let cut := String.ofList (declaration.toList ++ ['\n'] ++ openTag rootName ++ ['\n'] ++
      slotElement p (.layers .flow))
    let files := treeOfFile ['f'] cut.toUTF8
    (∃ more, String.ofList (write p) = cut ++ more ∧ more ≠ "") ∧
      (∃ reason, (atPath ⟨"f"⟩).loadCurrent files = .error (.deserialization reason)) ∧
      (atPath ⟨"f"⟩).loadOrDefault files = .default := by
  intro p cut files
  have hparts : ∃ more, String.ofList (write p) = cut ++ more ∧ more ≠ "" := by
    refine ⟨String.ofList (Slot.all.tail.flatMap (slotElement p) ++ closeTag rootName ++ ['\n']),
      ?_, ?_⟩
    · rw [← String.ofList_append]
      rfl
    · simp
  refine ⟨hparts, ?_⟩
  obtain ⟨more, hmore, hnonempty⟩ := hparts
  have hcut : (String.ofList (write p)).toUTF8 = cut.toUTF8 ++ more.toUTF8 := by
    rw [hmore]
    exact String.toByteArray_append
  have hproper : more.toUTF8 ≠ ByteArray.empty := fun hempty =>
    hnonempty (String.toByteArray_inj.1 hempty)
  obtain ⟨full, -, -, hload, -⟩ :=
    loadCurrent_cut p ⟨"f"⟩ files _ _ _ rfl hcut hproper rfl
  have hrefused : ∃ reason, (atPath ⟨"f"⟩).loadCurrent files =
      .error (.deserialization reason) := by
    rcases hload with hrefused | ⟨hinside, -⟩ | ⟨⟨before, hclosed⟩, -⟩
    · exact hrefused
    · -- the cut is not inside a character
      have hpart : cut.toList <+: (String.ofList (write p)).toList :=
        ⟨more.toList, by rw [hmore, String.toList_append]⟩
      exact absurd (by rw [String.ofList_toList]) (hinside _ hpart)
    · -- the part ends with a line feed, and not with a bracket
      have hfeed : cut.toUTF8.data.toList.getLast? = some 10 := by decide +kernel
      have hbracket : "</Settings>".toUTF8.data.toList.getLast? = some 62 := by decide +kernel
      rw [hclosed, ByteArray.data_append, Array.toList_append, List.getLast?_append,
        hbracket] at hfeed
      cases hfeed
  obtain ⟨reason, hreason⟩ := hrefused
  exact ⟨⟨reason, hreason⟩, by rw [loadOrDefault, hreason]⟩

end Store

end ChipSettings
