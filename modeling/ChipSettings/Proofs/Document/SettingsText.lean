import ChipSettings.Proofs.Document.Parts
import ChipSettings.Proofs.Xml.Prefix

/-! # Settings Documents as Anybody May Spell Them

  A whole document: a prolog, the document element, and whatever follows it.

  - `SettingsText`: such a document, by its parts.
  - `firstTag?`: the first element among tokens, which is all that the first pass of the reader
    looks at (`checkRoot_eq`).
  - `tokens_render`: its tokens. `checkRoot_prolog` and `readRoot_prolog`: the two passes of the
    reader go through the prolog to the document element.
  - `read_render`: the document is read as its parts are stored in the default profile.
-/

namespace ChipSettings.Document

open Text Xml

/-! ## The Prolog -/

/-- A document type declaration whose brackets are balanced. -/
structure Doctype where
  /-- What stands between the word and the closing bracket. -/
  body : List Char
  isBalanced : splitBalanced? 0 (body ++ ['>']) = some (body, [])
  isNamed : body.all isMarkupSpace = false

namespace Doctype

/-- The declaration as it is spelled. -/
def render (d : Doctype) : List Char := '<' :: '!' :: (doctypeWord ++ (d.body ++ ['>']))

def tokens (_ : Doctype) : List Token := [.doctype]

variable (d : Doctype)

theorem isTextChar_head?_render (rest : List Char) :
    ∀ c ∈ (d.render ++ rest).head?, isTextChar c = false := by
  intro c hc
  cases hc
  rfl

theorem scan_doctype (rest : List Char) : scan (d.render ++ rest) = emit d.tokens (scan rest) := by
  have hbody : splitBalanced? 0 (d.body ++ '>' :: rest) = some (d.body, rest) := by
    have happend := splitBalanced?_append d.isBalanced rest
    rwa [List.append_assoc] at happend
  have hcontent : splitBalanced? 0 (doctypeWord ++ (d.body ++ '>' :: rest)) =
      some (doctypeWord ++ d.body, rest) := by
    simp [doctypeWord, splitBalanced?, hbody]
  have hrender : d.render ++ rest = '<' :: '!' :: (doctypeWord ++ (d.body ++ '>' :: rest)) := by
    simp [render]
  rw [hrender]
  apply scan_of_read
  show readDoctype (doctypeWord ++ (d.body ++ '>' :: rest)) = _
  rw [readDoctype, hcontent]
  simp only [List.take_left, List.drop_left, d.isNamed]
  rw [if_pos (by decide)]
  rfl

end Doctype

/-- Blank text in front of something starts with a blank or with a tag, if with anything. -/
theorem mem_head?_gap (gap : Gap) {rest : List Char} {c : Char}
    (hc : c ∈ (gap.prose.render ++ rest).head?) :
    isMarkupSpace c = true ∨ c = '<' ∨ c ∈ rest.head? := by
  obtain ⟨prose, hblank⟩ := gap
  have hrun {run : Run} (hrun : run.chars.all isMarkupSpace = true) {behind : List Char}
      (hc : c ∈ (run.chars ++ behind).head?) : isMarkupSpace c = true ∨ c ∈ behind.head? := by
    rw [List.all_eq_true] at hrun
    cases hchars : run.chars with
    | nil => exact .inr (by rwa [hchars] at hc)
    | cons d ds =>
      rw [hchars] at hc hrun
      cases hc
      exact .inl (hrun c List.mem_cons_self)
  cases prose with
  | last run =>
    rcases hrun hblank hc with hc | hc
    · exact .inl hc
    · exact .inr (.inr hc)
  | next run piece after =>
    -- the piece is silent: a comment or an instruction, which starts with a bracket
    simp only [Prose.isBlank, Bool.and_eq_true] at hblank
    rw [Prose.render, List.append_assoc] at hc
    rcases hrun hblank.1.1 hc with hc | hc
    · exact .inl hc
    · cases piece with
      | reference name d h => cases hblank.1.2
      | cdata content h => cases hblank.1.2
      | comment content h => cases hc; exact .inr (.inl rfl)
      | instruction content h => cases hc; exact .inr (.inl rfl)

/-- A prolog does not start with a byte order mark. -/
theorem ne_byteOrderMark_of_mem_head? (prolog : Separated Doctype) {rest : List Char}
    (hrest : ∀ c ∈ rest.head?, c ≠ byteOrderMark) :
    ∀ c ∈ (prolog.render Doctype.render ++ rest).head?, c ≠ byteOrderMark := by
  intro c hc
  have hbracket : '<' ≠ byteOrderMark := by decide
  have hblank (h : isMarkupSpace c = true) : c ≠ byteOrderMark := by
    rintro rfl
    exact absurd h (by decide)
  cases prolog with
  | last gap =>
    rcases mem_head?_gap gap hc with hc | rfl | hc
    · exact hblank hc
    · exact hbracket
    · exact hrest c hc
  | next gap d after =>
    rw [Separated.render, List.append_assoc, List.append_assoc] at hc
    rcases mem_head?_gap gap hc with hc | rfl | hc
    · exact hblank hc
    · exact hbracket
    · cases hc
      exact hbracket

/-! ## Through the Prolog -/

/-- The tag of the first element among tokens. -/
def firstTag? : List Token → Option Tag
  | [] => none
  | .startTag tag _ :: _ => some tag
  | _ :: ts => firstTag? ts

/-- The first pass looks at the first element and at nothing else. -/
theorem checkRoot_eq (ending : Ending) (ts : List Token) :
    checkRoot ending ts = match firstTag? ts with
      | none => .error (ending.error .noRoot)
      | some tag =>
        if tag.localName = rootName.toList then .ok () else .error (.wrongRoot tag.localName) := by
  induction ts with
  | nil => rfl
  | cons t ts ih => cases t with
    | startTag tag selfClosing => rfl
    | text content => exact ih
    | cdata content => exact ih
    | reference name => exact ih
    | comment => exact ih
    | instruction => exact ih
    | doctype => exact ih
    | endTag name => exact ih

/-- Prose holds no element. -/
theorem firstTag?_prose (prose : Prose) (ts : List Token) :
    firstTag? (prose.tokens ++ ts) = firstTag? ts := by
  have hrun (run : Run) (ts : List Token) : firstTag? (run.tokens ++ ts) = firstTag? ts := by
    unfold Run.tokens
    split
    · rfl
    · rfl
  induction prose with
  | last run => exact hrun run ts
  | next run piece rest ih =>
    rw [Prose.tokens, List.append_assoc, hrun, ← ih]
    cases piece with
    | reference name c h => rfl
    | cdata content h => rfl
    | comment content h => rfl
    | instruction content h => rfl

/-- Neither does a prolog. -/
theorem firstTag?_prolog (prolog : Separated Doctype) (ts : List Token) :
    firstTag? (prolog.tokens Doctype.tokens ++ ts) = firstTag? ts := by
  induction prolog with
  | last gap => exact firstTag?_prose gap.prose ts
  | next gap d rest ih =>
    rw [Separated.tokens, List.append_assoc, List.append_assoc, firstTag?_prose]
    exact ih

/-- The first pass goes through the prolog. -/
theorem checkRoot_prolog (prolog : Separated Doctype) (ending : Ending) (ts : List Token) :
    checkRoot ending (prolog.tokens Doctype.tokens ++ ts) = checkRoot ending ts := by
  rw [checkRoot_eq, checkRoot_eq, firstTag?_prolog]

theorem readRoot_gap (gap : Gap) (ending : Ending) {ts : List Token}
    (hts : startsWithText (events ts) = false) :
    readRoot ending (events (gap.prose.tokens ++ ts)) = readRoot ending (events ts) := by
  rcases gap.prose.padded_events hts with hevents | ⟨hevents, -⟩
  · rw [hevents, readRoot, if_pos (gap.prose.isMarkupSpace_of_mem_value gap.isBlank)]
  · rw [hevents]

/-- So does the second. -/
theorem readRoot_prolog (prolog : Separated Doctype) (ending : Ending) {ts : List Token}
    (hts : startsWithText (events ts) = false) :
    readRoot ending (events (prolog.tokens Doctype.tokens ++ ts)) =
      readRoot ending (events ts) := by
  induction prolog with
  | last gap => exact readRoot_gap gap ending hts
  | next gap d rest ih =>
    rw [Separated.tokens, List.append_assoc, List.append_assoc, readRoot_gap gap ending rfl]
    exact ih

/-! ## Documents -/

/-- A settings document. -/
structure SettingsText where
  /-- Is there a byte order mark in front? -/
  marked : Bool
  /-- The declaration, comments and document type declarations. -/
  prolog : Separated Doctype
  root : Element (Separated Part)
  isRoot : root.tag.localName = rootName.toList
  /-- What follows the document element, which nobody reads. -/
  rest : List Char

namespace SettingsText

/-- The document as it is spelled. -/
def render (d : SettingsText) : List Char :=
  (if d.marked then [byteOrderMark] else []) ++ (d.prolog.render Doctype.render ++
    (d.root.render (Separated.render Part.render) ++ d.rest))

/-- The children of the document element. -/
def parts (d : SettingsText) : List Part := d.root.value [] Separated.list

/-- The tokens up to the end of the document element. -/
def tokens (d : SettingsText) : List Token :=
  d.prolog.tokens Doctype.tokens ++ d.root.tokens (Separated.tokens Part.tokens)

variable (d : SettingsText)

theorem dropWhile_render : d.render.dropWhile (· == byteOrderMark) =
    d.prolog.render Doctype.render ++ (d.root.render (Separated.render Part.render) ++ d.rest) := by
  apply dropWhile_run
  · intro c hc
    split at hc
    · rw [List.mem_singleton.1 hc]
      decide
    · cases hc
  · intro c hc
    refine beq_false_of_ne (ne_byteOrderMark_of_mem_head? d.prolog (fun c hc => ?_) c hc)
    have htag := d.root.isTextChar_head?_render (Separated.render Part.render) d.rest c hc
    rintro rfl
    exact absurd htag (by decide)

/-- The tokens of the document, whatever follows the document element. -/
theorem tokens_render :
    Xml.tokens (d.render.dropWhile (· == byteOrderMark)) =
      emit d.tokens (nest [] (scan d.rest).1 (scan d.rest).2) := by
  have hprolog : WellNested (d.prolog.tokens Doctype.tokens) :=
    d.prolog.wellNested_tokens fun _ => .flat rfl
  have hroot : WellNested (d.root.tokens (Separated.tokens Part.tokens)) :=
    d.root.wellNested_tokens fun parts => parts.wellNested_tokens Part.wellNested_tokens
  have hinside (parts : Separated Part) (rest : List Char) :
      scan (parts.render Part.render ++ '<' :: rest) =
        emit (parts.tokens Part.tokens) (scan ('<' :: rest)) :=
    parts.scan_separated Part.scan_part Part.isTextChar_head?_render (by simp [isTextChar])
  unfold Xml.tokens
  rw [d.dropWhile_render, d.prolog.scan_separated Doctype.scan_doctype
    Doctype.isTextChar_head?_render (d.root.isTextChar_head?_render _ _),
    d.root.scan_element hinside, emit_emit]
  exact (hprolog.append hroot) [] (scan d.rest).1 (scan d.rest).2

/-- The document is read as its parts are stored, one after the other, in the default
    profile. -/
theorem read_render : read d.render = storeParts [] .default d.parts := by
  unfold read
  rw [d.tokens_render]
  -- neither pass of the reader gets to what follows the document element
  generalize nest [] (scan d.rest).1 (scan d.rest).2 = after
  obtain ⟨more, ending⟩ := after
  have hroot := d.root.events_tokens (Separated.tokens Part.tokens) more
  have hcheck : checkRoot ending (d.tokens ++ more) = .ok () := by
    rw [tokens, List.append_assoc, checkRoot_prolog]
    have hname : d.root.tag.tag.localName = rootName.toList := by
      rw [d.root.tag.localName_tag, d.isRoot]
    cases hcases : d.root with
    | alone tag =>
      rw [hcases] at hname
      exact if_pos hname
    | around tag parts gap =>
      rw [hcases] at hname
      exact if_pos hname
  have hread : readRoot ending (events (d.tokens ++ more)) = storeParts [] .default d.parts := by
    rw [tokens, List.append_assoc, readRoot_prolog _ _ (by rw [hroot]; rfl), hroot,
      ← d.root.tag.name_tag]
    show (do Tag.checkNamespaces _; Tag.checkAttributes _; readSlots ending _ [] .default _) = _
    rw [d.root.tag.checkNamespaces_tag, d.root.tag.checkAttributes_tag]
    exact readSlots_inside d.root _ more
  show (do checkRoot ending (d.tokens ++ more); readRoot ending (events (d.tokens ++ more))) = _
  rw [hcheck, hread]
  rfl

end SettingsText

end ChipSettings.Document
