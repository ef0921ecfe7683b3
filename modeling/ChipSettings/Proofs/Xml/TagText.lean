import ChipSettings.Proofs.Xml.Markup

/-! # Tags as They Are Spelled

  A tag is a name, attributes with quoted values, and blanks where markup allows them. This is
  the spelling; what the tokenizer and the checks make of it is proved here.

  - `TagText`: a tag, by its parts. Its keys are distinct, and it leaves the reserved
    namespaces alone.
  - `scan_start`, `scan_empty` and `scan_end`: such tags give their tokens, whatever follows.
  - `readAttributes_render`: the attributes are read as they are spelled. So the tag passes
    both checks (`checkAttributes_tag`, `checkNamespaces_tag`).
  - `PlainName`: names of letters and digits. Such a name alone is a tag, too.
-/

namespace ChipSettings.Xml

open Text

/-! ## Names and Blanks -/

/-- A character that names consist of: no blank, and none that means something in a tag. -/
def isNameChar (c : Char) : Bool :=
  !isMarkupSpace c && c ∉ ['<', '>', '/', '=', '"', '\'', '&', '!', '?']

/-- The name of an element or of an attribute. -/
structure Name where
  chars : List Char
  ne_nil : chars ≠ []
  all_isNameChar : chars.all isNameChar = true

/-- Blanks of the markup, perhaps none. -/
structure Blanks where
  chars : List Char
  all_isMarkupSpace : chars.all isMarkupSpace = true

/-- No blanks. -/
def Blanks.none : Blanks := ⟨[], rfl⟩

theorem Name.isNameChar_of_mem (name : Name) : ∀ c ∈ name.chars, isNameChar c = true :=
  List.all_eq_true.1 name.all_isNameChar

theorem Blanks.isMarkupSpace_of_mem (blanks : Blanks) :
    ∀ c ∈ blanks.chars, isMarkupSpace c = true :=
  List.all_eq_true.1 blanks.all_isMarkupSpace

theorem isMarkupSpace_of_isNameChar {c : Char} (h : isNameChar c = true) :
    isMarkupSpace c = false := by
  simp only [isNameChar, Bool.and_eq_true, Bool.not_eq_true'] at h
  exact h.1

theorem ne_of_isNameChar {c d : Char} (hc : isNameChar c = true) (hd : isNameChar d = false) :
    c ≠ d := by
  rintro rfl
  rw [hc] at hd
  cases hd

/-- A name is not taken for any other markup. -/
theorem readMarkup_name (name : Name) (rest : List Char) :
    readMarkup (name.chars ++ rest) = readStartTag (name.chars ++ rest) := by
  obtain ⟨c, cs, hcs⟩ := List.exists_cons_of_ne_nil name.ne_nil
  have hc : isNameChar c = true := name.isNameChar_of_mem c (hcs ▸ List.mem_cons_self)
  rw [hcs, List.cons_append]
  unfold readMarkup
  split
  · next hnil => exact absurd hnil (List.cons_ne_nil _ _)
  · next hbang => exact absurd (List.cons.inj hbang).1 (ne_of_isNameChar hc (by decide))
  · next hmark => exact absurd (List.cons.inj hmark).1 (ne_of_isNameChar hc (by decide))
  · next hslash => exact absurd (List.cons.inj hslash).1 (ne_of_isNameChar hc (by decide))
  · rfl

/-! ## Attributes -/

/-- An attribute, with the blanks in front of it. -/
structure AttributeText where
  gap : Blanks
  gap_ne_nil : gap.chars ≠ []
  key : Name
  beforeEquals : Blanks
  afterEquals : Blanks
  quote : Char
  isQuote : quote = '"' ∨ quote = '\''
  value : List Char
  quote_not_mem : quote ∉ value

namespace AttributeText

/-- The attribute as it is spelled. -/
def render (a : AttributeText) : List Char :=
  a.gap.chars ++ (a.key.chars ++ (a.beforeEquals.chars ++
    '=' :: (a.afterEquals.chars ++ a.quote :: (a.value ++ [a.quote]))))

/-- An attribute that binds a prefix leaves the reserved ones alone: `xml` is bound to its own
    namespace only, and no other prefix to a reserved one. -/
def RespectsReserved (a : AttributeText) : Prop :=
  ∀ bound, a.key.chars = ['x', 'm', 'l', 'n', 's', ':'] ++ bound →
    bound ≠ ['x', 'm', 'l', 'n', 's'] ∧ (bound = ['x', 'm', 'l'] ↔ a.value = xmlNamespace) ∧
      a.value ≠ xmlnsNamespace

variable (a : AttributeText)

theorem isMarkupSpace_quote : isMarkupSpace a.quote = false := by
  rcases a.isQuote with h | h
  · rw [h]; rfl
  · rw [h]; rfl

/-- The key of an attribute and its `=` are read. -/
theorem readKey_render (total position : Nat) (rest : List Char) :
    ∃ start next, readKey total position (a.render ++ rest) = .ok (some ⟨a.key.chars, start, next,
      a.afterEquals.chars ++ a.quote :: (a.value ++ a.quote :: rest)⟩) := by
  obtain ⟨c, cs, hcs⟩ := List.exists_cons_of_ne_nil a.key.ne_nil
  have hkey : ∀ d ∈ c :: cs, isNameChar d = true := hcs ▸ a.key.isNameChar_of_mem
  generalize hvalue : a.afterEquals.chars ++ a.quote :: (a.value ++ a.quote :: rest) = value
  generalize htail : a.beforeEquals.chars ++ '=' :: value = tail
  have hrender : a.render ++ rest = a.gap.chars ++ c :: (cs ++ tail) := by
    simp [render, hcs, ← htail, ← hvalue]
  -- blanks in front of the key
  have hgap : (a.gap.chars ++ c :: (cs ++ tail)).dropWhile isMarkupSpace = c :: (cs ++ tail) :=
    dropWhile_run a.gap.isMarkupSpace_of_mem
      (by simpa using isMarkupSpace_of_isNameChar (hkey c List.mem_cons_self))
  -- the rest of the key, up to a blank or the `=`
  have hin : ∀ d ∈ cs, (d != '=' && !isMarkupSpace d) = true := by
    intro d hd
    have hname := hkey d (List.mem_cons_of_mem c hd)
    have hequals : d ≠ '=' := ne_of_isNameChar hname rfl
    simp [isMarkupSpace_of_isNameChar hname, hequals]
  have hend : ∀ d ∈ tail.head?, (d != '=' && !isMarkupSpace d) = false := by
    rw [← htail]
    cases hbefore : a.beforeEquals.chars with
    | nil => simp
    | cons d ds =>
      have hblank := a.beforeEquals.isMarkupSpace_of_mem d (hbefore ▸ List.mem_cons_self)
      simp [hblank]
  -- blanks up to the `=`
  have hequals : tail.dropWhile isMarkupSpace = '=' :: value := by
    rw [← htail]
    exact dropWhile_run a.beforeEquals.isMarkupSpace_of_mem (by simp [isMarkupSpace])
  rw [hrender, hcs]
  unfold readKey
  simp only [hgap, takeWhile_run hin hend, dropWhile_run hin hend, hequals]
  exact ⟨_, _, rfl⟩

/-- The value of an attribute is read. -/
theorem readValue_render (total position : Nat) (rest : List Char) :
    ∃ next, readValue total position
        (a.afterEquals.chars ++ a.quote :: (a.value ++ a.quote :: rest)) =
      .ok ⟨a.value, next, rest⟩ := by
  have hgap : (a.afterEquals.chars ++ a.quote :: (a.value ++ a.quote :: rest)).dropWhile
      isMarkupSpace = a.quote :: (a.value ++ a.quote :: rest) :=
    dropWhile_run a.afterEquals.isMarkupSpace_of_mem (by simpa using a.isMarkupSpace_quote)
  have hquote : (a.quote == '"' || a.quote == '\'') = true := by
    rcases a.isQuote with h | h
    · rw [h]; rfl
    · rw [h]; rfl
  have hin : ∀ c ∈ a.value, (c != a.quote) = true := by
    intro c hc
    rw [bne_iff_ne]
    rintro rfl
    exact a.quote_not_mem hc
  have hend : ∀ c ∈ (a.quote :: rest).head?, (c != a.quote) = false := by simp
  unfold readValue
  simp only [hgap, hquote, if_true, takeWhile_run hin hend, dropWhile_run hin hend]
  exact ⟨_, rfl⟩

end AttributeText

/-- Attributes are read as they are spelled, up to blanks at the end. -/
theorem readAttributes_render (attributes : List AttributeText) (gap : Blanks)
    (total position : Nat) :
    ∃ as, readAttributes total position (attributes.flatMap AttributeText.render ++ gap.chars) =
        (as, .complete) ∧
      as.map (fun a => (a.key, a.value)) = attributes.map fun a => (a.key.chars, a.value) := by
  induction attributes generalizing position with
  | nil =>
    have hblank : gap.chars.dropWhile isMarkupSpace = [] := by
      rw [← List.append_nil gap.chars]
      exact dropWhile_run gap.isMarkupSpace_of_mem (by simp)
    have hkey : readKey total position gap.chars = .ok none := by
      unfold readKey
      rw [hblank]
    refine ⟨[], ?_, rfl⟩
    show readAttributes total position gap.chars = _
    unfold readAttributes
    split
    · next h => rw [hkey] at h; cases h
    · rfl
    · next h => rw [hkey] at h; cases h
  | cons a attributes ih =>
    rw [List.flatMap_cons, List.append_assoc]
    obtain ⟨start, afterKey, hkey⟩ := a.readKey_render total position
      (attributes.flatMap AttributeText.render ++ gap.chars)
    obtain ⟨afterValue, hvalue⟩ := a.readValue_render total afterKey
      (attributes.flatMap AttributeText.render ++ gap.chars)
    obtain ⟨as, has, hsame⟩ := ih afterValue
    refine ⟨⟨a.key.chars, a.value, start⟩ :: as, ?_, by rw [List.map_cons, hsame]; rfl⟩
    unfold readAttributes
    split
    · next h => rw [hkey] at h; cases h
    · next h => rw [hkey] at h; cases h
    · next h =>
      rw [hkey] at h
      cases h
      split
      · next h => rw [hvalue] at h; cases h
      · next h =>
        rw [hvalue] at h
        cases h
        rw [has]

/-! ## Tags -/

/-- A tag: its name, its attributes, and blanks in front of its end. -/
structure TagText where
  name : Name
  attributes : List AttributeText
  gap : Blanks
  nodup_keys : (attributes.map (·.key.chars)).Nodup
  respectsReserved : ∀ a ∈ attributes, a.RespectsReserved

namespace TagText

/-- What stands between the brackets of a start tag. -/
def content (t : TagText) : List Char :=
  t.name.chars ++ (t.attributes.flatMap AttributeText.render ++ t.gap.chars)

/-- The tag as it is read. -/
def tag (t : TagText) : Tag := ⟨t.content⟩

/-- The local name of the tag. -/
def localName (t : TagText) : List Char := localPart t.name.chars

variable (t : TagText)

/-- Behind the name of a tag stands a blank, or nothing. -/
theorem isMarkupSpace_behind_name :
    ∀ c ∈ (t.attributes.flatMap AttributeText.render ++ t.gap.chars).head?,
      isMarkupSpace c = true := by
  intro c hc
  cases hattributes : t.attributes with
  | nil =>
    rw [hattributes] at hc
    exact t.gap.isMarkupSpace_of_mem c (List.mem_of_head? hc)
  | cons a attributes =>
    obtain ⟨d, ds, hd⟩ := List.exists_cons_of_ne_nil a.gap_ne_nil
    rw [hattributes] at hc
    simp only [List.flatMap_cons, AttributeText.render, hd, List.cons_append,
      List.head?_cons, Option.mem_def, Option.some.injEq] at hc
    subst hc
    exact a.gap.isMarkupSpace_of_mem d (hd ▸ List.mem_cons_self)

/-- The first characters of a tag are its name. -/
@[simp] theorem name_tag : t.tag.name = t.name.chars := by
  refine takeWhile_run (fun c hc => ?_) (fun c hc => ?_)
  · rw [isMarkupSpace_of_isNameChar (t.name.isNameChar_of_mem c hc)]
    rfl
  · rw [t.isMarkupSpace_behind_name c hc]
    rfl

@[simp] theorem localName_tag : t.tag.localName = t.localName := by
  rw [Tag.localName, name_tag, localName]

/-- The attributes of a tag are read as they are spelled. -/
theorem attributes_tag :
    ∃ as, t.tag.attributes = (as, .complete) ∧
      as.map (fun a => (a.key, a.value)) = t.attributes.map fun a => (a.key.chars, a.value) := by
  have hbehind : t.content.dropWhile (!isMarkupSpace ·) =
      t.attributes.flatMap AttributeText.render ++ t.gap.chars := by
    refine dropWhile_run (fun c hc => ?_) (fun c hc => ?_)
    · rw [isMarkupSpace_of_isNameChar (t.name.isNameChar_of_mem c hc)]
      rfl
    · rw [t.isMarkupSpace_behind_name c hc]
      rfl
  unfold Tag.attributes
  rw [show t.tag.content = t.content from rfl, hbehind]
  exact readAttributes_render _ _ _ _

end TagText

/-! ## The Checks -/

/-- Attributes whose keys are new and distinct pass the syntax check. -/
theorem checkSyntax_of_nodup {seen : List (List Char × Nat)} {as : List Attribute}
    (hnodup : (as.map Attribute.key).Nodup)
    (hnew : ∀ a ∈ as, ∀ known ∈ seen, known.1 ≠ a.key) :
    checkSyntax seen as .complete = .ok () := by
  induction as generalizing seen with
  | nil => rfl
  | cons a as ih =>
    obtain ⟨ha, hnodup⟩ := List.nodup_cons.1 hnodup
    have hfirst : checkNew seen a.key a.position = .ok () := by
      have hnone : positionOf? seen a.key = none := by
        rw [positionOf?, List.find?_eq_none.2]
        · rfl
        · intro known hknown
          simpa using hnew a List.mem_cons_self known hknown
      rw [checkNew, hnone]
    rw [checkSyntax, hfirst]
    refine ih hnodup fun b hb known hknown => ?_
    rcases List.mem_append.1 hknown with hknown | hknown
    · exact hnew b (List.mem_cons_of_mem a hb) known hknown
    · rw [List.mem_singleton.1 hknown]
      intro heq
      exact ha (List.mem_map.2 ⟨b, hb, heq.symm⟩)

/-- A declaration that respects the reserved namespaces passes the check. -/
theorem checkBinding_of_respectsReserved {a : AttributeText} (h : a.RespectsReserved)
    (position : Nat) : checkBinding ⟨a.key.chars, a.value, position⟩ = .ok () := by
  unfold checkBinding
  split
  · rfl
  · next bound hbound =>
    have hkey : a.key.chars = ['x', 'm', 'l', 'n', 's', ':'] ++ bound := by
      unfold boundPrefix? at hbound
      split at hbound
      · next hkey => cases hbound; exact hkey
      · cases hbound
    obtain ⟨hxmlns, hxml, hreserved⟩ := h bound hkey
    by_cases hbound : bound = ['x', 'm', 'l']
    · rw [if_pos hbound, if_pos (hxml.1 hbound)]
    · rw [if_neg hbound, if_neg hxmlns, if_neg]
      rintro (hvalue | hvalue)
      · exact hbound (hxml.2 hvalue)
      · exact hreserved hvalue

/-- So do all attributes of a tag, one after the other. -/
theorem forM_checkBinding {attributes : List AttributeText} {as : List Attribute}
    (h : ∀ a ∈ attributes, a.RespectsReserved)
    (hsame : as.map (fun a => (a.key, a.value)) = attributes.map fun a => (a.key.chars, a.value)) :
    as.forM checkBinding = .ok () := by
  induction attributes generalizing as with
  | nil =>
    obtain rfl : as = [] := List.map_eq_nil_iff.1 hsame
    rfl
  | cons b attributes ih =>
    obtain ⟨a, as, rfl, ha, has⟩ := List.map_eq_cons_iff.1 hsame
    obtain ⟨key, value, position⟩ := a
    cases ha
    have hfirst := checkBinding_of_respectsReserved (h b List.mem_cons_self) position
    have hrest := ih (fun c hc => h c (List.mem_cons_of_mem b hc)) has
    show (do checkBinding _; as.forM checkBinding) = Except.ok ()
    rw [hfirst, hrest]
    rfl

namespace TagText

variable (t : TagText)

/-- The attributes of a tag pass the syntax check. -/
theorem checkAttributes_tag : t.tag.checkAttributes = .ok () := by
  obtain ⟨as, has, hsame⟩ := t.attributes_tag
  have hkeys : as.map Attribute.key = t.attributes.map (·.key.chars) := by
    simpa [Function.comp_def] using congrArg (List.map Prod.fst) hsame
  rw [Tag.checkAttributes, has, checkSyntax_of_nodup (hkeys ▸ t.nodup_keys) (by simp)]
  rfl

/-- The namespaces that a tag declares pass the check. -/
theorem checkNamespaces_tag : t.tag.checkNamespaces = .ok () := by
  obtain ⟨as, has, hsame⟩ := t.attributes_tag
  rw [Tag.checkNamespaces, has, forM_checkBinding t.respectsReserved hsame]
  rfl

end TagText

/-! ## Tokens of Tags -/

/-- A piece of a tag in which every quote is closed, and that has no closing bracket outside of
    quotes. -/
def Balanced (piece : List Char) : Prop :=
  ∀ rest, splitTag? none (piece ++ rest) =
    (splitTag? none rest).map fun (before, after) => (piece ++ before, after)

namespace Balanced

theorem nil : Balanced [] := by
  intro rest
  rw [List.nil_append]
  cases splitTag? none rest with
  | none => rfl
  | some split => rfl

theorem append {as bs : List Char} (ha : Balanced as) (hb : Balanced bs) : Balanced (as ++ bs) := by
  intro rest
  rw [List.append_assoc, ha, hb, Option.map_map]
  simp [Function.comp_def]

/-- Characters that mean nothing in a tag. -/
theorem of_plain {cs : List Char} (h : ∀ c ∈ cs, c ≠ '>' ∧ c ≠ '"' ∧ c ≠ '\'') : Balanced cs := by
  induction cs with
  | nil => exact nil
  | cons c cs ih =>
    intro rest
    obtain ⟨hclose, hquote, hquote'⟩ := h c List.mem_cons_self
    have ih := ih (fun d hd => h d (List.mem_cons_of_mem c hd)) rest
    simp [splitTag?, hclose, hquote, hquote', ih, Function.comp_def]

/-- A quoted value. -/
theorem quoted {quote : Char} (hquote : quote = '"' ∨ quote = '\'') {value : List Char}
    (h : quote ∉ value) : Balanced (quote :: (value ++ [quote])) := by
  -- inside the quotes, everything up to the closing one is passed over
  have hinside (rest : List Char) : splitTag? (some quote) (value ++ quote :: rest) =
      (splitTag? none rest).map fun (before, after) => (value ++ quote :: before, after) := by
    induction value with
    | nil => simp [splitTag?]
    | cons c value ih =>
      obtain ⟨hc, hvalue⟩ := List.ne_and_not_mem_of_not_mem_cons h
      simp [splitTag?, hc.symm, ih hvalue, Function.comp_def]
  intro rest
  have hopen : splitTag? none (quote :: (value ++ quote :: rest)) =
      (splitTag? (some quote) (value ++ quote :: rest)).map fun (before, after) =>
        (quote :: before, after) := by
    rcases hquote with rfl | rfl
    · rfl
    · rfl
  rw [List.cons_append, List.append_assoc, List.singleton_append, hopen, hinside, Option.map_map]
  simp [Function.comp_def]

theorem flatMap {α : Type} {f : α → List Char} (h : ∀ a, Balanced (f a)) (as : List α) :
    Balanced (as.flatMap f) := by
  induction as with
  | nil => exact nil
  | cons a as ih =>
    rw [List.flatMap_cons]
    exact (h a).append ih

theorem blanks (blanks : Blanks) : Balanced blanks.chars := by
  apply of_plain
  intro c hc
  have hblank := blanks.isMarkupSpace_of_mem c hc
  refine ⟨?_, ?_, ?_⟩ <;> rintro rfl <;> cases hblank

theorem name (name : Name) : Balanced name.chars := by
  apply of_plain
  intro c hc
  have hname := name.isNameChar_of_mem c hc
  exact ⟨ne_of_isNameChar hname (by decide), ne_of_isNameChar hname (by decide),
    ne_of_isNameChar hname (by decide)⟩

theorem attributeText (a : AttributeText) : Balanced a.render := by
  have hequals : Balanced ['='] := of_plain (by simp)
  have hparts := (blanks a.gap).append ((name a.key).append ((blanks a.beforeEquals).append
    (hequals.append ((blanks a.afterEquals).append (quoted a.isQuote a.quote_not_mem)))))
  exact hparts

theorem content (t : TagText) : Balanced t.content :=
  (name t.name).append ((flatMap attributeText t.attributes).append (blanks t.gap))

/-- A balanced piece ends at the bracket that follows it. -/
theorem splitTag?_append {piece : List Char} (h : Balanced piece) (rest : List Char) :
    splitTag? none (piece ++ '>' :: rest) = some (piece, rest) := by
  rw [h]
  simp [splitTag?]

end Balanced

namespace TagText

variable (t : TagText)

/-- The content of a tag does not end in a slash, which would make an empty element of it. -/
theorem getLast?_content : t.content.getLast? ≠ some '/' := by
  have happend {as bs : List Char} (ha : as.getLast? ≠ some '/') (hb : bs.getLast? ≠ some '/') :
      (as ++ bs).getLast? ≠ some '/' := by
    rw [List.getLast?_append]
    cases hlast : bs.getLast? with
    | none => exact ha
    | some c => rwa [hlast] at hb
  have hname : t.name.chars.getLast? ≠ some '/' := fun hlast =>
    ne_of_isNameChar (t.name.isNameChar_of_mem _ (List.mem_of_getLast? hlast)) (by decide) rfl
  have hgap : t.gap.chars.getLast? ≠ some '/' := by
    intro hlast
    cases t.gap.isMarkupSpace_of_mem _ (List.mem_of_getLast? hlast)
  have hattributes (attributes : List AttributeText) :
      (attributes.flatMap AttributeText.render).getLast? ≠ some '/' := by
    induction attributes with
    | nil => simp
    | cons a attributes ih =>
      rw [List.flatMap_cons]
      refine happend ?_ ih
      -- an attribute ends in its quote
      have hrender : a.render = a.gap.chars ++ a.key.chars ++ a.beforeEquals.chars ++ ['='] ++
          a.afterEquals.chars ++ [a.quote] ++ a.value ++ [a.quote] := by
        simp [AttributeText.render]
      rw [hrender, List.getLast?_concat]
      rcases a.isQuote with h | h
      · rw [h]; decide
      · rw [h]; decide
  exact happend hname (happend (hattributes t.attributes) hgap)

/-- A start tag. -/
theorem scan_start (rest : List Char) :
    scan ('<' :: (t.content ++ '>' :: rest)) = emit [.startTag t.tag false] (scan rest) := by
  have hread : readMarkup (t.content ++ '>' :: rest) = readStartTag (t.content ++ '>' :: rest) := by
    rw [content, List.append_assoc, readMarkup_name]
  have hlast : startTagOf t.content = .startTag t.tag false := by
    unfold startTagOf
    split
    · next reversed hreverse =>
      have hlast : t.content.getLast? = some '/' := by
        rw [← List.head?_reverse, hreverse]
        rfl
      exact absurd hlast t.getLast?_content
    · rfl
  apply scan_of_read
  show readMarkup _ = _
  rw [hread, readStartTag, (Balanced.content t).splitTag?_append, ← hlast]

/-- An empty element. -/
theorem scan_empty (rest : List Char) :
    scan ('<' :: (t.content ++ '/' :: '>' :: rest)) = emit [.startTag t.tag true] (scan rest) := by
  have hread : readMarkup (t.content ++ '/' :: '>' :: rest) =
      readStartTag (t.content ++ '/' :: '>' :: rest) := by
    rw [content, List.append_assoc, readMarkup_name]
  -- the slash belongs to the content of the tag
  have hslash : Balanced (t.content ++ ['/']) :=
    (Balanced.content t).append (.of_plain (by simp))
  have hsplit : t.content ++ '/' :: '>' :: rest = t.content ++ ['/'] ++ '>' :: rest := by simp
  apply scan_of_read
  show readMarkup _ = _
  rw [hread, readStartTag, hsplit, hslash.splitTag?_append]
  simp [startTagOf, tag]

end TagText

/-- An end tag. -/
theorem scan_end (name : Name) (gap : Blanks) (rest : List Char) :
    scan ('<' :: '/' :: (name.chars ++ (gap.chars ++ '>' :: rest))) =
      emit [.endTag name.chars] (scan rest) := by
  have htrim : trimRight isMarkupSpace (name.chars ++ gap.chars) = name.chars := by
    rw [trimRight, List.reverse_append, dropWhile_run, List.reverse_reverse]
    · exact fun c hc => gap.isMarkupSpace_of_mem c (List.mem_reverse.1 hc)
    · intro c hc
      exact isMarkupSpace_of_isNameChar
        (name.isNameChar_of_mem c (List.mem_reverse.1 (List.mem_of_head? hc)))
  have hname : endTagName (name.chars ++ gap.chars) = name.chars := by
    rw [endTagName, htrim]
    split
    · next hnil => exact absurd hnil name.ne_nil
    · rfl
  apply scan_of_read
  show readEndTag _ = _
  rw [readEndTag, ← List.append_assoc,
    ((Balanced.name name).append (Balanced.blanks gap)).splitTag?_append]
  show Except.ok (Token.endTag (endTagName (name.chars ++ gap.chars)), rest) = _
  rw [hname]

/-! ## Plain Names -/

/-- A name of letters and digits. -/
def PlainName (name : List Char) : Prop := name ≠ [] ∧ name.all Char.isAlphanum = true

instance (name : List Char) : Decidable (PlainName name) :=
  inferInstanceAs (Decidable (_ ∧ _))

namespace PlainName

variable {name : List Char}

/-- A plain name holds no character that is neither a letter nor a digit. -/
theorem ne_of_mem (h : PlainName name) {c d : Char} (hc : c ∈ name) (hd : d.isAlphanum = false) :
    c ≠ d := by
  rintro rfl
  have := List.all_eq_true.1 h.2 c hc
  rw [hd] at this
  cases this

/-- All that means something in markup is neither a letter nor a digit. -/
theorem isNameChar_of_mem (h : PlainName name) {c : Char} (hc : c ∈ name) :
    isNameChar c = true := by
  have hne {d : Char} (hd : d.isAlphanum = false) : c ≠ d := h.ne_of_mem hc hd
  have hspace : isMarkupSpace c = false := by
    simp [isMarkupSpace, hne (show ' '.isAlphanum = false by decide),
      hne (show '\t'.isAlphanum = false by decide), hne (show '\r'.isAlphanum = false by decide),
      hne (show '\n'.isAlphanum = false by decide)]
  have hfree : c ∉ ['<', '>', '/', '=', '"', '\'', '&', '!', '?'] := by
    intro hmem
    have hall : ['<', '>', '/', '=', '"', '\'', '&', '!', '?'].all (!Char.isAlphanum ·) = true := by
      decide
    exact hne (by simpa using List.all_eq_true.1 hall c hmem) rfl
  rw [isNameChar, hspace, decide_eq_true hfree]
  rfl

/-- The tag that is just a plain name. -/
def tagText (h : PlainName name) : TagText where
  name := ⟨name, h.1, List.all_eq_true.2 fun _ => h.isNameChar_of_mem⟩
  attributes := []
  gap := .none
  nodup_keys := List.nodup_nil
  respectsReserved _ ha := absurd ha List.not_mem_nil

theorem content_tagText (h : PlainName name) : h.tagText.content = name := List.append_nil name

theorem tag_tagText (h : PlainName name) : h.tagText.tag = ⟨name⟩ :=
  congrArg Tag.mk h.content_tagText

/-- A tag that is a plain name has that name. -/
@[simp] theorem tag_name (h : PlainName name) : Tag.name ⟨name⟩ = name :=
  h.tag_tagText ▸ h.tagText.name_tag

/-- A plain name has no prefix. -/
theorem tag_localName (h : PlainName name) : Tag.localName ⟨name⟩ = name := by
  have hdrop : (name ++ []).dropWhile (· != ':') = [] :=
    dropWhile_run (fun c hc => bne_iff_ne.2 (h.ne_of_mem hc (by decide))) (by simp)
  rw [List.append_nil] at hdrop
  rw [Tag.localName, h.tag_name, localPart, hdrop]

theorem localName_tagText (h : PlainName name) : h.tagText.localName = name := by
  rw [← h.tagText.localName_tag, h.tag_tagText, h.tag_localName]

theorem tag_checkNamespaces (h : PlainName name) : Tag.checkNamespaces ⟨name⟩ = .ok () :=
  h.tag_tagText ▸ h.tagText.checkNamespaces_tag

theorem tag_checkAttributes (h : PlainName name) : Tag.checkAttributes ⟨name⟩ = .ok () :=
  h.tag_tagText ▸ h.tagText.checkAttributes_tag

/-- A start tag. -/
theorem scan_openTag (h : PlainName name) (rest : List Char) :
    scan ('<' :: (name ++ '>' :: rest)) = emit [.startTag ⟨name⟩ false] (scan rest) := by
  have htag := h.tagText.scan_start rest
  rwa [h.content_tagText, h.tag_tagText] at htag

/-- An empty element. -/
theorem scan_emptyTag (h : PlainName name) (rest : List Char) :
    scan ('<' :: (name ++ '/' :: '>' :: rest)) = emit [.startTag ⟨name⟩ true] (scan rest) := by
  have htag := h.tagText.scan_empty rest
  rwa [h.content_tagText, h.tag_tagText] at htag

/-- An end tag. -/
theorem scan_closeTag (h : PlainName name) (rest : List Char) :
    scan ('<' :: '/' :: (name ++ '>' :: rest)) = emit [.endTag name] (scan rest) :=
  scan_end h.tagText.name .none rest

end PlainName

end ChipSettings.Xml
