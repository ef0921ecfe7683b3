import ChipSettings.Document.Reader
import ChipSettings.Document.Writer
import ChipSettings.Proofs.Xml.Prose
import ChipSettings.Proofs.Xml.TagText

/-! # Written Content Read Back

  A text is written escaped, and read as a sequence of runs and references that are joined
  again.

  - `escapedTokens` are the tokens of an escaped text: a reference for each of the three
    characters that cannot stand in text, and the longest runs of the others between them.
  - `events_escapedTokens`: joined again, they are the text with its line ends normalized.
    Escaped characters never belong to a line end, so that it does not matter that each run
    is normalized on its own.
  - `readText_elementTokens`: an element that was written with a text is read with it.
-/

namespace ChipSettings.Document

open Text Xml

/-! ## Escaped Text -/

/-- The entity that a character is written as, if it cannot stand in text. -/
def entityOf? (c : Char) : Option (List Char) :=
  if c == '&' then some ['a', 'm', 'p']
  else if c == '<' then some ['l', 't']
  else if c == '>' then some ['g', 't']
  else none

/-- The character stands in text as it is. -/
def isUnescaped (c : Char) : Bool := (entityOf? c).isNone

/-- The tokens of an escaped text. -/
def escapedTokens : List Char → List Token
  | [] => []
  | c :: cs =>
    match entityOf? c with
    | some name => .reference name :: escapedTokens cs
    | none => .text (c :: cs.takeWhile isUnescaped) :: escapedTokens (cs.dropWhile isUnescaped)
termination_by cs => cs.length
decreasing_by
  · simp
  · exact Nat.lt_succ_of_le (length_dropWhile_le isUnescaped cs)

/-- A character and the entity it is written as. -/
theorem entityOf?_eq_some {c : Char} {name : List Char} (h : entityOf? c = some name) :
    escapeChar c = '&' :: (name ++ [';']) ∧ resolve name = .ok c ∧ isForeignLineEnd c = false ∧
      c ≠ '\n' ∧ c ≠ '\u0085' := by
  unfold entityOf? at h
  split at h
  · next hc =>
    obtain rfl := eq_of_beq hc
    obtain rfl := Option.some.inj h
    exact ⟨rfl, rfl, rfl, by decide, by decide⟩
  · split at h
    · next hc =>
      obtain rfl := eq_of_beq hc
      obtain rfl := Option.some.inj h
      exact ⟨rfl, rfl, rfl, by decide, by decide⟩
    · split at h
      · next hc =>
        obtain rfl := eq_of_beq hc
        obtain rfl := Option.some.inj h
        exact ⟨rfl, rfl, rfl, by decide, by decide⟩
      · cases h

/-- A character without an entity is written as it is, and is no markup. -/
theorem entityOf?_eq_none {c : Char} (h : entityOf? c = none) :
    escapeChar c = [c] ∧ isTextChar c = true := by
  unfold entityOf? at h
  unfold escapeChar isTextChar
  split at h
  · cases h
  · next hamp =>
    split at h
    · cases h
    · next hlt =>
      split at h
      · cases h
      · next hgt => simp_all

/-- A run of characters that stand as they are is written as it is. -/
theorem escape_run {run : List Char} (h : ∀ c ∈ run, isUnescaped c = true) : escape run = run := by
  induction run with
  | nil => rfl
  | cons c run ih =>
    have hc : entityOf? c = none := by simpa [isUnescaped] using h c List.mem_cons_self
    have ih := ih fun d hd => h d (List.mem_cons_of_mem c hd)
    rw [escape, List.flatMap_cons, (entityOf?_eq_none hc).1, ← escape, ih]
    rfl

theorem escape_append (as bs : List Char) : escape (as ++ bs) = escape as ++ escape bs :=
  List.flatMap_append

/-- A character with an entity is written as a reference. -/
theorem escape_cons {c : Char} {name : List Char} (h : entityOf? c = some name) (cs : List Char) :
    escape (c :: cs) = '&' :: (name ++ ';' :: escape cs) := by
  rw [escape, List.flatMap_cons, (entityOf?_eq_some h).1, ← escape]
  simp

/-- What is written for a text that starts with an escaped character is no text. -/
theorem isTextChar_head?_escape {cs : List Char} (h : ∀ c ∈ cs.head?, isUnescaped c = false)
    (rest : List Char) : ∀ c ∈ (escape cs ++ '<' :: rest).head?, isTextChar c = false := by
  cases cs with
  | nil => intro c hc; obtain rfl : '<' = c := by simpa [escape] using hc
           decide
  | cons c cs =>
    intro d hd
    have hc : isUnescaped c = false := h c rfl
    obtain ⟨name, hname⟩ : ∃ name, entityOf? c = some name := by
      simpa [isUnescaped, Option.isNone_eq_false_iff, Option.isSome_iff_exists] using hc
    rw [escape_cons hname] at hd
    obtain rfl : '&' = d := by simpa using hd
    decide

/-- What follows the longest run of unescaped characters starts with an escaped one. -/
theorem isUnescaped_head?_dropWhile (cs : List Char) :
    ∀ c ∈ (cs.dropWhile isUnescaped).head?, isUnescaped c = false := by
  intro c hc
  have := List.head?_dropWhile_not isUnescaped cs
  rw [Option.mem_def.1 hc] at this
  simpa using this

/-- The tokens of an escaped text, in front of markup. -/
theorem scan_escape (cs rest : List Char) :
    scan (escape cs ++ '<' :: rest) = emit (escapedTokens cs) (scan ('<' :: rest)) := by
  fun_induction escapedTokens cs with
  | case1 => rfl
  | case2 c cs name hname ih =>
    have hdelimiter : ∀ d ∈ name, d ≠ ';' ∧ d ≠ '&' ∧ d ≠ '<' := by
      intro d hd
      have hends := endsReference_of_resolve (entityOf?_eq_some hname).2.1 d hd
      simpa [endsReference, and_assoc] using hends
    -- a reference ends at its semicolon, whatever follows
    rw [escape_cons hname]
    show scan ('&' :: (name ++ ';' :: escape cs ++ '<' :: rest)) = _
    rw [List.append_assoc, List.cons_append, scan_reference hdelimiter, ih, emit_emit]
    rfl
  | case3 c cs hname ih =>
    have hrun : ∀ d ∈ c :: cs.takeWhile isUnescaped, isUnescaped d = true := by
      intro d hd
      rcases List.mem_cons.1 hd with rfl | hd
      · simp [isUnescaped, hname]
      · exact List.all_eq_true.1 List.all_takeWhile d hd
    have htext : ∀ d ∈ c :: cs.takeWhile isUnescaped, isTextChar d = true := by
      intro d hd
      exact (entityOf?_eq_none (by simpa [isUnescaped] using hrun d hd)).2
    -- the run ends where the next reference or the markup begins
    have hsplit : escape (c :: cs) =
        c :: cs.takeWhile isUnescaped ++ escape (cs.dropWhile isUnescaped) := by
      rw [← escape_run hrun, ← escape_append, List.cons_append, List.takeWhile_append_dropWhile]
    rw [hsplit, List.append_assoc, scan_text (List.cons_ne_nil _ _) htext
      (isTextChar_head?_escape (isUnescaped_head?_dropWhile cs) rest), ih, emit_emit]
    rfl

theorem isFlat_escapedTokens (cs : List Char) : ∀ t ∈ escapedTokens cs, t.isFlat = true := by
  fun_induction escapedTokens cs with
  | case1 => simp
  | case2 c cs name hname ih =>
    intro t ht
    rcases List.mem_cons.1 ht with rfl | ht
    · rfl
    · exact ih t ht
  | case3 c cs hname ih =>
    intro t ht
    rcases List.mem_cons.1 ht with rfl | ht
    · rfl
    · exact ih t ht

/-- The tokens of an escaped text mean the text, with its line ends normalized. -/
theorem events_escapedTokens (cs : List Char) (more : List Token) :
    events (escapedTokens cs ++ more) = putText (normalizeLineEnds cs) (events more) := by
  fun_induction escapedTokens cs with
  | case1 => rfl
  | case2 c cs name hname ih =>
    obtain ⟨-, hresolve, hforeign, -⟩ := entityOf?_eq_some hname
    rw [normalizeLineEnds_cons hforeign, putText_of_ne_nil (List.cons_ne_nil _ _)]
    show joinText ((resolve name).map ([·])) (events (escapedTokens cs ++ more)) = _
    rw [hresolve, ih]
    exact joinText_putText [c] _ _
  | case3 c cs hname ih =>
    -- behind the run stands an escaped character, which belongs to no line end
    have hboundary : ∀ d ∈ (cs.dropWhile isUnescaped).head?, d ≠ '\n' ∧ d ≠ '\u0085' := by
      intro d hd
      obtain ⟨name, hd⟩ : ∃ name, entityOf? d = some name := by
        simpa [isUnescaped, Option.isNone_eq_false_iff, Option.isSome_iff_exists] using
          isUnescaped_head?_dropWhile cs d hd
      exact (entityOf?_eq_some hd).2.2.2
    have hsplit : normalizeLineEnds (c :: cs) =
        normalizeLineEnds (c :: cs.takeWhile isUnescaped) ++
          normalizeLineEnds (cs.dropWhile isUnescaped) := by
      rw [← normalizeLineEnds_append hboundary, List.cons_append, List.takeWhile_append_dropWhile]
    rw [putText_of_ne_nil (normalizeLineEnds_ne_nil (List.cons_ne_nil _ _)), hsplit]
    show joinText (.ok (normalizeLineEnds (c :: cs.takeWhile isUnescaped)))
      (events (escapedTokens (cs.dropWhile isUnescaped) ++ more)) = _
    rw [ih, joinText_putText]

/-! ## Elements That Hold Text -/

/-- An element with a text, without the blanks around it. -/
def elementText (name : String) (content : List Char) : List Char :=
  if content.isEmpty then emptyTag name
  else openTag name ++ escape content ++ closeTag name

/-- The tokens of an element with a text. -/
def elementTokens (name : String) (content : List Char) : List Token :=
  if content.isEmpty then [.startTag ⟨name.toList⟩ true]
  else .startTag ⟨name.toList⟩ false :: (escapedTokens content ++ [.endTag name.toList])

variable {name : String}

theorem scan_emptyTag (h : PlainName name.toList) (rest : List Char) :
    scan (emptyTag name ++ rest) = emit [.startTag ⟨name.toList⟩ true] (scan rest) := by
  rw [← h.scan_emptyTag]
  simp [emptyTag]

theorem scan_openTag (h : PlainName name.toList) (rest : List Char) :
    scan (openTag name ++ rest) = emit [.startTag ⟨name.toList⟩ false] (scan rest) := by
  rw [← h.scan_openTag]
  simp [openTag]

theorem scan_closeTag (h : PlainName name.toList) (rest : List Char) :
    scan (closeTag name ++ rest) = emit [.endTag name.toList] (scan rest) := by
  rw [← h.scan_closeTag]
  simp [closeTag]

theorem scan_elementText (h : PlainName name.toList) (content rest : List Char) :
    scan (elementText name content ++ rest) = emit (elementTokens name content) (scan rest) := by
  unfold elementText elementTokens
  split
  · exact scan_emptyTag h rest
  · have hclose : closeTag name ++ rest = '<' :: ('/' :: (name.toList ++ ['>']) ++ rest) := rfl
    rw [List.append_assoc, List.append_assoc, scan_openTag h, hclose, scan_escape, ← hclose,
      scan_closeTag h, emit_emit, emit_emit]
    rfl

theorem wellNested_elementTokens (h : PlainName name.toList) (content : List Char) :
    WellNested (elementTokens name content) := by
  unfold elementTokens
  split
  · exact .flat rfl
  · have hinside := WellNested.of_isFlat (isFlat_escapedTokens content)
    have helement := hinside.element ⟨name.toList⟩
    rwa [h.tag_name] at helement

/-- An element that was written with a text is read with it, its line ends normalized. -/
theorem readText_elementTokens (name : String) (content : List Char) (more : List Token) :
    ∃ es, events (elementTokens name content ++ more) = .start ⟨name.toList⟩ :: es ∧
      ∀ ending owner, readText ending owner es = .ok (normalizeLineEnds content, events more) := by
  unfold elementTokens
  split
  · next hempty =>
    obtain rfl : content = [] := List.isEmpty_iff.1 hempty
    exact ⟨.finish :: events more, rfl, fun _ _ => rfl⟩
  · next hcontent =>
    have hne : content ≠ [] := fun h => hcontent (List.isEmpty_iff.2 h)
    refine ⟨.text (.ok (normalizeLineEnds content)) :: .finish :: events more, ?_, fun _ _ => rfl⟩
    show Event.start ⟨name.toList⟩ ::
      events (escapedTokens content ++ [.endTag name.toList] ++ more) = _
    rw [List.append_assoc, events_escapedTokens, putText_of_ne_nil (normalizeLineEnds_ne_nil hne)]
    rfl

end ChipSettings.Document
