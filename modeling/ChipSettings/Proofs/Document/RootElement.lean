import ChipSettings.Codec
import ChipSettings.Proofs.Document.SettingsText

/-! # Finding the Root Element

  The reader looks for the root element twice: once to check its name, and once to read it.
  Both passes stop at the first start tag of the document.

  - `startsWithTag`: a text that starts with its root. `read_behind_prolog`: whatever prolog is
    put in front of it, byte order marks included, it is read as before.
  - `rootTag?`: the tag of the first element of any text. `checkRoot_nest`: if it is not named
    as a settings element, the document is refused.
  - `root_agreement`: both, for the deserializer.
-/

namespace ChipSettings.Document

open Text Xml

/-! ## Texts That Start with Their Root -/

/-- Does the text start with a start tag, or with the beginning of one? -/
def startsWithTag : List Char → Bool
  | '<' :: c :: _ => c != '!' && c != '?' && c != '/'
  | _ => false

variable {d : List Char}

theorem exists_startTagOf (content : List Char) :
    ∃ tag selfClosing, startTagOf content = .startTag tag selfClosing := by
  unfold startTagOf
  split
  · exact ⟨_, _, rfl⟩
  · exact ⟨_, _, rfl⟩

/-- The first token of such a text is a start tag, if it has any tokens. -/
theorem scan_startsWithTag (h : startsWithTag d = true) :
    (∃ e, scan d = ([], .broken e)) ∨
      ∃ tag selfClosing rest, scan d = emit [.startTag tag selfClosing] (scan rest) := by
  unfold startsWithTag at h
  split at h
  · next c cs =>
    simp only [Bool.and_eq_true, bne_iff_ne] at h
    obtain ⟨⟨hbang, hmark⟩, hslash⟩ := h
    have hread : Token.read '<' (c :: cs) = readStartTag (c :: cs) := by
      show readMarkup (c :: cs) = _
      unfold readMarkup
      split
      · next hnil => exact absurd hnil (List.cons_ne_nil _ _)
      · next heq => exact absurd (List.cons.inj heq).1 hbang
      · next heq => exact absurd (List.cons.inj heq).1 hmark
      · next heq => exact absurd (List.cons.inj heq).1 hslash
      · rfl
    unfold readStartTag at hread
    split at hread
    · next content rest _ =>
      obtain ⟨tag, selfClosing, htag⟩ := exists_startTagOf content
      rw [htag] at hread
      exact .inr ⟨tag, selfClosing, rest, scan_of_read hread⟩
    · exact .inl ⟨_, scan_of_error hread⟩
  · cases h

/-- So its first event is no text. -/
theorem startsWithText_startsWithTag (h : startsWithTag d = true) :
    startsWithText (events (tokens d).1) = false := by
  unfold tokens
  rcases scan_startsWithTag h with ⟨e, hscan⟩ | ⟨tag, selfClosing, rest, hscan⟩
  · rw [hscan]
    rfl
  · rw [hscan]
    cases selfClosing with
    | true => rfl
    | false => rfl

theorem head?_startsWithTag (h : startsWithTag d = true) : ∀ c ∈ d.head?, c = '<' := by
  unfold startsWithTag at h
  split at h
  · intro c hc
    exact (Option.some.inj hc).symm
  · cases h

/-! ## Behind a Prolog -/

variable (marks : Nat) (prolog : Separated Doctype)

/-- Byte order marks in front of a prolog do not count. -/
theorem dropWhile_prolog (h : startsWithTag d = true) :
    (List.replicate marks byteOrderMark ++ (prolog.render Doctype.render ++ d)).dropWhile
      (· == byteOrderMark) = prolog.render Doctype.render ++ d := by
  apply dropWhile_run
  · intro c hc
    rw [List.eq_of_mem_replicate hc]
    rfl
  · intro c hc
    refine beq_false_of_ne (ne_byteOrderMark_of_mem_head? prolog (fun c hc => ?_) c hc)
    rw [head?_startsWithTag h c hc]
    decide

theorem dropWhile_startsWithTag (h : startsWithTag d = true) :
    d.dropWhile (· == byteOrderMark) = d := by
  have hnothing := dropWhile_prolog 0 (.last ⟨.empty, rfl⟩) h
  exact hnothing

/-- The tokens of a prolog stand in front of those of the document. -/
theorem scan_prolog (h : startsWithTag d = true) :
    scan (prolog.render Doctype.render ++ d) =
      emit (prolog.tokens Doctype.tokens) (scan d) := by
  refine prolog.scan_separated Doctype.scan_doctype Doctype.isTextChar_head?_render fun c hc => ?_
  rw [head?_startsWithTag h c hc]
  rfl

theorem tokens_prolog (h : startsWithTag d = true) :
    tokens (prolog.render Doctype.render ++ d) =
      emit (prolog.tokens Doctype.tokens) (tokens d) := by
  have hprolog : WellNested (prolog.tokens Doctype.tokens) :=
    prolog.wellNested_tokens fun _ => .flat rfl
  unfold tokens
  rw [scan_prolog prolog h]
  exact hprolog [] (scan d).1 (scan d).2

/-- A document is read in the same way behind every prolog. -/
theorem read_behind_prolog (h : startsWithTag d = true) :
    read (List.replicate marks byteOrderMark ++ (prolog.render Doctype.render ++ d)) = read d := by
  have hevents := startsWithText_startsWithTag h
  unfold read
  rw [dropWhile_prolog marks prolog h, dropWhile_startsWithTag h, tokens_prolog prolog h]
  generalize tokens d = found at hevents
  obtain ⟨ts, ending⟩ := found
  show (do checkRoot ending (_ ++ ts); readRoot ending (events (_ ++ ts))) = _
  rw [checkRoot_prolog, readRoot_prolog prolog ending hevents]

/-! ## The Root of Any Text -/

/-- The tag of the first element of a text. -/
def rootTag? (cs : List Char) : Option Tag :=
  firstTag? (scan (cs.dropWhile (· == byteOrderMark))).1

/-- A tag that a text starts with is the root. -/
theorem rootTag?_tag (t : TagText) (rest : List Char) :
    rootTag? ('<' :: (t.content ++ '>' :: rest)) = some t.tag ∧
      rootTag? ('<' :: (t.content ++ '/' :: '>' :: rest)) = some t.tag := by
  have hmark (cs : List Char) : ('<' :: cs).dropWhile (· == byteOrderMark) = '<' :: cs := rfl
  unfold rootTag?
  rw [hmark, hmark, t.scan_start, t.scan_empty]
  exact ⟨rfl, rfl⟩

/-- The root behind a prolog is that of the document. -/
theorem rootTag?_behind_prolog (h : startsWithTag d = true) :
    rootTag? (List.replicate marks byteOrderMark ++ (prolog.render Doctype.render ++ d)) =
      rootTag? d := by
  unfold rootTag?
  rw [dropWhile_prolog marks prolog h, dropWhile_startsWithTag h, scan_prolog prolog h]
  exact firstTag?_prolog prolog _

/-- A root of another name is refused, unless an end tag in front of it was refused before. -/
theorem checkRoot_nest {ts : List Token} {tag : Tag} (hroot : firstTag? ts = some tag)
    (hname : tag.localName ≠ rootName.toList) (ending : Ending) :
    ∃ e, checkRoot (nest [] ts ending).2 (nest [] ts ending).1 = .error e ∧
      (e = .wrongRoot tag.localName ∨ ∃ name, e = .unmatchedEnd name) := by
  -- in front of the first start tag no element is open, so only an end tag can stop the check
  induction ts with
  | nil => cases hroot
  | cons t ts ih => cases t with
    | startTag tag' selfClosing =>
      obtain rfl := Option.some.inj hroot
      cases selfClosing with
      | true => exact ⟨_, if_neg hname, .inl rfl⟩
      | false => exact ⟨_, if_neg hname, .inl rfl⟩
    | endTag name => exact ⟨_, rfl, .inr ⟨name, rfl⟩⟩
    | text content => exact ih hroot
    | cdata content => exact ih hroot
    | reference name => exact ih hroot
    | comment => exact ih hroot
    | instruction => exact ih hroot
    | doctype => exact ih hroot

/-! ## The Deserializer -/

/-- What does not deserialize is a deserialization error. -/
theorem deserialize_ok_or_error (text : String) :
    (∃ p, Codec.xml.deserialize text = .ok p) ∨
      ∃ reason, Codec.xml.deserialize text = .error (.deserialization reason) := by
  show (∃ p, (read text.toList).mapError _ = _) ∨ ∃ reason, (read text.toList).mapError _ = _
  cases read text.toList with
  | ok p => exact .inl ⟨p, rfl⟩
  | error e => exact .inr ⟨e.message, rfl⟩

/-- **The root decides**: a text that starts with its root element is deserialized in the same
    way behind any number of byte order marks and any prolog of blanks, comments, instructions
    and declarations, whatever these hold. And a text whose first element is not named as a
    settings element is refused, whatever other elements there are. -/
theorem root_agreement :
    (∀ (marks : Nat) (prolog : Separated Doctype) (d : List Char), startsWithTag d = true →
      let text := String.ofList
        (List.replicate marks byteOrderMark ++ (prolog.render Doctype.render ++ d))
      rootTag? text.toList = rootTag? d ∧
      Codec.xml.deserialize text = Codec.xml.deserialize (String.ofList d) ∧
      ((∃ p, Codec.xml.deserialize text = .ok p) ∨
        ∃ reason, Codec.xml.deserialize text = .error (.deserialization reason))) ∧
    ∀ (text : String) (tag : Tag), rootTag? text.toList = some tag →
      tag.localName ≠ rootName.toList →
      ∃ e, Codec.xml.deserialize text = .error (.deserialization (XmlError.message e)) ∧
        (e = .wrongRoot tag.localName ∨ ∃ name, e = .unmatchedEnd name) := by
  constructor
  · intro marks prolog d h text
    refine ⟨?_, ?_, deserialize_ok_or_error text⟩
    · rw [String.toList_ofList, rootTag?_behind_prolog marks prolog h]
    · show (read text.toList).mapError _ = (read (String.ofList d).toList).mapError _
      rw [String.toList_ofList, String.toList_ofList, read_behind_prolog marks prolog h]
  · intro text tag hroot hname
    obtain ⟨e, hcheck, he⟩ := checkRoot_nest hroot hname
      (scan (text.toList.dropWhile (· == byteOrderMark))).2
    refine ⟨e, ?_, he⟩
    show (read text.toList).mapError _ = _
    unfold read tokens
    simp only [hcheck]
    rfl

/-- Where a question mark is only at the front, no instruction ends. -/
theorem not_inside_instruction {content : List Char} (hmark : '?' ∉ content)
    (hhead : content.head? ≠ some '>') : ¬ ['?', '>'] <:+: '?' :: content := by
  intro h
  rcases List.infix_cons_iff.1 h with hfront | hbehind
  · obtain ⟨rest, hrest⟩ := hfront
    rw [← (List.cons.inj hrest).2] at hhead
    exact hhead rfl
  · exact hmark (hbehind.subset List.mem_cons_self)

/-- A prolog whose comment and instruction name a settings element. -/
def misleadingProlog : Separated Doctype :=
  .last {
    prose := .next .empty (.instruction "xml version=\"1.0\"".toList
        (not_inside_instruction (by decide) (by decide)))
      (.next ⟨"\n".toList, by decide⟩ (.comment " <Settings> ".toList fun h =>
        absurd (h.subset List.mem_cons_self) (by decide))
      (.next .empty (.instruction "note <Settings>".toList
        (not_inside_instruction (by decide) (by decide)))
      (.last ⟨"\n".toList, by decide⟩)))
    isBlank := by decide }

theorem plainName_project : PlainName "Project".toList := by decide

set_option maxRecDepth 4000 in
/-- Behind it, a document with another root is refused as on its own, although a settings element
    is in it. -/
theorem root_agreement_project :
    startsWithTag "<Project><Settings/></Project>".toList = true ∧
      ∃ reason, Codec.xml.deserialize "\uFEFF\uFEFF<?xml version=\"1.0\"?>
<!-- <Settings> --><?note <Settings>?>
<Project><Settings/></Project>" = .error (.deserialization reason) ∧
        Codec.xml.deserialize "<Project><Settings/></Project>" =
          .error (.deserialization reason) := by
  have hstarts : startsWithTag "<Project><Settings/></Project>".toList = true := by decide
  have hdocument : "<Project><Settings/></Project>".toList =
      '<' :: (plainName_project.tagText.content ++ '>' :: "<Settings/></Project>".toList) := by
    decide
  have hwhole : "\uFEFF\uFEFF<?xml version=\"1.0\"?>
<!-- <Settings> --><?note <Settings>?>
<Project><Settings/></Project>" = String.ofList (List.replicate 2 byteOrderMark ++
      (misleadingProlog.render Doctype.render ++ "<Project><Settings/></Project>".toList)) := by
    decide
  obtain ⟨hbehind, hforeign⟩ := root_agreement
  obtain ⟨-, hsame, -⟩ := hbehind 2 misleadingProlog _ hstarts
  rw [← hwhole, String.ofList_toList] at hsame
  have hroot := (rootTag?_tag plainName_project.tagText "<Settings/></Project>".toList).1
  rw [← hdocument] at hroot
  have hname : plainName_project.tagText.tag.localName ≠ rootName.toList := by
    rw [plainName_project.tag_tagText, plainName_project.tag_localName]
    decide
  obtain ⟨e, he, -⟩ := hforeign _ _ hroot hname
  exact ⟨hstarts, e.message, hsame.trans he, he⟩

end ChipSettings.Document
