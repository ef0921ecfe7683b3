import ChipSettings.Xml.Tag

/-! # Tokens

  A document is cut into tokens before anything is made of it.

  - `Token.read` cuts one token off a text that is not empty: a start or end tag, a
    run of text, a reference, or one of the kinds of markup that hold no content.
  - `scan` repeats it, and stops at the first error. The tokens before the error are
    kept, because whoever reads them may never ask for the rest.
  - `nest` checks that end tags close the elements that are open, in order.

  `tokens` is both together: the well-nested tokens of a document, and how they end.
-/

namespace ChipSettings.Xml

open Text

/-- A token of a document. -/
inductive Token where
  /-- A run of text. -/
  | text (content : List Char)
  /-- A character data section. -/
  | cdata (content : List Char)
  /-- A reference, without its ampersand and semicolon. -/
  | reference (name : List Char)
  | comment
  | instruction
  | doctype
  /-- A start tag; an empty element closes itself. -/
  | startTag (tag : Tag) (selfClosing : Bool)
  | endTag (name : List Char)
deriving DecidableEq

/-- How a sequence of tokens ends: with the input, or at an error. -/
inductive Ending where
  | complete
  | broken (error : XmlError)
deriving DecidableEq

/-- The error met at the end, where the input's own end is the error `unclosed`. -/
def Ending.error (ending : Ending) (unclosed : XmlError) : XmlError :=
  match ending with
  | .complete => unclosed
  | .broken error => error

/-! ## Finding Where a Token Ends -/

/-- What precedes and what follows the first occurrence of a pattern. -/
def splitAt? (pattern : List Char) : List Char → Option (List Char × List Char)
  | [] => none
  | c :: cs =>
    if pattern.isPrefixOf (c :: cs) then some ([], (c :: cs).drop pattern.length)
    else (splitAt? pattern cs).map fun (before, after) => (c :: before, after)

/-- What precedes and what follows the first `>` outside quotes. `quote` is the quote
    that is open at the start, if any. -/
def splitTag? (quote : Option Char) : List Char → Option (List Char × List Char)
  | [] => none
  | c :: cs =>
    let cut next := (splitTag? next cs).map fun (before, after) => (c :: before, after)
    match quote with
    | some q => if c == q then cut none else cut (some q)
    | none =>
      if c == '>' then some ([], cs)
      else if c == '"' || c == '\'' then cut (some c)
      else cut none

/-- What precedes and what follows the first `>` that closes no `<` met before it.
    `depth` counts the `<` still open. -/
def splitBalanced? (depth : Nat) : List Char → Option (List Char × List Char)
  | [] => none
  | c :: cs =>
    let cut next := (splitBalanced? next cs).map fun (before, after) => (c :: before, after)
    if c == '>' then
      match depth with
      | 0 => some ([], cs)
      | d + 1 => cut d
    else if c == '<' then cut (depth + 1)
    else cut depth

/-! ## Reading One Token -/

/-- A reference, from behind its ampersand. -/
def readReference (cs : List Char) : Except XmlError (Token × List Char) :=
  let inName := fun c => c != ';' && c != '&' && c != '<'
  match cs.dropWhile inName with
  | ';' :: rest => .ok (.reference (cs.takeWhile inName), rest)
  | _ => .error .unclosedReference

/-- A comment, from behind its `<!-`. -/
def readComment (cs : List Char) : Except XmlError (Token × List Char) :=
  match cs with
  | '-' :: body => match splitAt? ['-', '-', '>'] body with
    | some (_, rest) => .ok (.comment, rest)
    | none => .error .unclosedComment
  | _ => .error .unclosedComment

/-- A character data section, from behind its `<![`. -/
def readCData (cs : List Char) : Except XmlError (Token × List Char) :=
  match cs with
  | 'C' :: 'D' :: 'A' :: 'T' :: 'A' :: '[' :: body => match splitAt? [']', ']', '>'] body with
    | some (content, rest) => .ok (.cdata content, rest)
    | none => .error .unclosedCData
  | _ => .error .unclosedCData

/-- The word that opens a document type declaration, in upper case. -/
def doctypeWord : List Char := ['D', 'O', 'C', 'T', 'Y', 'P', 'E']

/-- A document type declaration, from behind its `<!`; its word counts in either case. -/
def readDoctype (cs : List Char) : Except XmlError (Token × List Char) :=
  match splitBalanced? 0 cs with
  | none => .error .unclosedDoctype
  | some (content, rest) =>
    if (content.take doctypeWord.length).map Char.toUpper = doctypeWord then
      if (content.drop doctypeWord.length).all isMarkupSpace then .error .unnamedDoctype
      else .ok (.doctype, rest)
    else .error .unclosedDoctype

/-- Markup that starts with an exclamation mark, from behind it. -/
def readDeclaration (cs : List Char) : Except XmlError (Token × List Char) :=
  match cs with
  | '-' :: rest => readComment rest
  | '[' :: rest => readCData rest
  | 'D' :: _ => readDoctype cs
  | 'd' :: _ => readDoctype cs
  | _ => .error .unknownMarkup

/-- A processing instruction, from behind its `<`. The leading question mark must not
    be the one that ends it. -/
def readInstruction (cs : List Char) : Except XmlError (Token × List Char) :=
  match splitAt? ['?', '>'] cs with
  | some (_ :: _, rest) => .ok (.instruction, rest)
  | _ => .error .unclosedInstruction

/-- The name in an end tag: blanks at its right end do not count, unless there is
    nothing else. -/
def endTagName (content : List Char) : List Char :=
  match trimRight isMarkupSpace content with
  | [] => content
  | name => name

/-- An end tag, from behind its slash. -/
def readEndTag (cs : List Char) : Except XmlError (Token × List Char) :=
  match splitTag? none cs with
  | some (content, rest) => .ok (.endTag (endTagName content), rest)
  | none => .error .unclosedTag

/-- A start tag's content: a slash at its right end makes the element empty. -/
def startTagOf (content : List Char) : Token :=
  match content.reverse with
  | '/' :: reversed => .startTag ⟨reversed.reverse⟩ true
  | _ => .startTag ⟨content⟩ false

/-- A start tag, from behind its `<`. -/
def readStartTag (cs : List Char) : Except XmlError (Token × List Char) :=
  match splitTag? none cs with
  | some (content, rest) => .ok (startTagOf content, rest)
  | none => .error .unclosedTag

/-- Markup, from behind its `<`. -/
def readMarkup (cs : List Char) : Except XmlError (Token × List Char) :=
  match cs with
  | [] => .error .unclosedTag
  | '!' :: rest => readDeclaration rest
  | '?' :: _ => readInstruction cs
  | '/' :: rest => readEndTag rest
  | _ => readStartTag cs

/-- Characters that a run of text consists of. -/
def isTextChar (c : Char) : Bool := c != '<' && c != '&'

/-- The token that starts with the character `c`, and what follows it. -/
def Token.read (c : Char) (cs : List Char) : Except XmlError (Token × List Char) :=
  if c == '<' then readMarkup cs
  else if c == '&' then readReference cs
  else .ok (.text (c :: cs.takeWhile isTextChar), cs.dropWhile isTextChar)

/-! ## Every Token Consumes Something -/

theorem length_splitAt? {pattern cs before after : List Char}
    (h : splitAt? pattern cs = some (before, after)) : after.length ≤ cs.length := by
  induction cs generalizing before after with
  | nil => simp [splitAt?] at h
  | cons c cs ih =>
    unfold splitAt? at h
    split at h
    · simp only [Option.some.injEq, Prod.mk.injEq] at h
      rw [← h.2]
      simp
    · simp only [Option.map_eq_some_iff, Prod.mk.injEq, Prod.exists] at h
      obtain ⟨b, a, hba, -, rfl⟩ := h
      exact Nat.le_succ_of_le (ih hba)

theorem length_splitTag? {quote : Option Char} {cs before after : List Char}
    (h : splitTag? quote cs = some (before, after)) : after.length ≤ cs.length := by
  induction cs generalizing quote before after with
  | nil => simp [splitTag?] at h
  | cons c cs ih =>
    have cut {next : Option Char}
        (h : (splitTag? next cs).map (fun (b, a) => (c :: b, a)) = some (before, after)) :
        after.length ≤ (c :: cs).length := by
      simp only [Option.map_eq_some_iff, Prod.mk.injEq, Prod.exists] at h
      obtain ⟨b, a, hba, -, rfl⟩ := h
      exact Nat.le_succ_of_le (ih hba)
    unfold splitTag? at h
    simp only at h
    split at h
    · split at h <;> exact cut h
    · split at h
      · simp only [Option.some.injEq, Prod.mk.injEq] at h
        rw [← h.2]
        exact Nat.le_succ _
      · split at h <;> exact cut h

theorem length_splitBalanced? {depth : Nat} {cs before after : List Char}
    (h : splitBalanced? depth cs = some (before, after)) : after.length ≤ cs.length := by
  induction cs generalizing depth before after with
  | nil => simp [splitBalanced?] at h
  | cons c cs ih =>
    have cut {next : Nat}
        (h : (splitBalanced? next cs).map (fun (b, a) => (c :: b, a)) = some (before, after)) :
        after.length ≤ (c :: cs).length := by
      simp only [Option.map_eq_some_iff, Prod.mk.injEq, Prod.exists] at h
      obtain ⟨b, a, hba, -, rfl⟩ := h
      exact Nat.le_succ_of_le (ih hba)
    unfold splitBalanced? at h
    simp only at h
    split at h
    · split at h
      · simp only [Option.some.injEq, Prod.mk.injEq] at h
        rw [← h.2]
        exact Nat.le_succ _
      · exact cut h
    · split at h <;> exact cut h

theorem length_readReference {cs rest : List Char} {t : Token}
    (h : readReference cs = .ok (t, rest)) : rest.length ≤ cs.length := by
  have hd := length_dropWhile_le (fun c => c != ';' && c != '&' && c != '<') cs
  unfold readReference at h
  simp only at h
  split at h
  · next r hr =>
    simp only [Except.ok.injEq, Prod.mk.injEq] at h
    rw [hr, List.length_cons] at hd
    rw [← h.2]
    omega
  · simp at h

theorem length_readDeclaration {cs rest : List Char} {t : Token}
    (h : readDeclaration cs = .ok (t, rest)) : rest.length ≤ cs.length := by
  have doctype {ds : List Char} (h : readDoctype ds = .ok (t, rest)) :
      rest.length ≤ ds.length := by
    unfold readDoctype at h
    split at h
    · simp at h
    · next content r hs =>
      have := length_splitBalanced? hs
      split at h
      · split at h
        · simp at h
        · simp only [Except.ok.injEq, Prod.mk.injEq] at h
          rw [← h.2]; exact this
      · simp at h
  unfold readDeclaration at h
  split at h
  · unfold readComment at h
    split at h
    · split at h
      · next hs =>
        have := length_splitAt? hs
        simp only [Except.ok.injEq, Prod.mk.injEq] at h
        rw [← h.2]
        simp only [List.length_cons]
        omega
      · simp at h
    · simp at h
  · unfold readCData at h
    split at h
    · split at h
      · next hs =>
        have := length_splitAt? hs
        simp only [Except.ok.injEq, Prod.mk.injEq] at h
        rw [← h.2]
        simp only [List.length_cons]
        omega
      · simp at h
    · simp at h
  · exact doctype h
  · exact doctype h
  · simp at h

theorem length_readMarkup {cs rest : List Char} {t : Token}
    (h : readMarkup cs = .ok (t, rest)) : rest.length ≤ cs.length := by
  unfold readMarkup at h
  split at h
  · simp at h
  · exact Nat.le_succ_of_le (length_readDeclaration h)
  · unfold readInstruction at h
    split at h
    · next hs =>
      simp only [Except.ok.injEq, Prod.mk.injEq] at h
      rw [← h.2]
      exact length_splitAt? hs
    · simp at h
  · unfold readEndTag at h
    split at h
    · next hs =>
      simp only [Except.ok.injEq, Prod.mk.injEq] at h
      rw [← h.2]
      exact Nat.le_succ_of_le (length_splitTag? hs)
    · simp at h
  · unfold readStartTag at h
    split at h
    · next hs =>
      simp only [Except.ok.injEq, Prod.mk.injEq] at h
      rw [← h.2]
      exact length_splitTag? hs
    · simp at h

/-- What follows a token is no longer than what follows its first character. -/
theorem Token.length_read {c : Char} {cs rest : List Char} {t : Token}
    (h : Token.read c cs = .ok (t, rest)) : rest.length ≤ cs.length := by
  unfold Token.read at h
  split at h
  · exact length_readMarkup h
  · split at h
    · exact length_readReference h
    · simp only [Except.ok.injEq, Prod.mk.injEq] at h
      rw [← h.2]
      exact length_dropWhile_le _ _

/-! ## All Tokens of a Document -/

/-- Cut a text into tokens, up to the first error. -/
def scan (cs : List Char) : List Token × Ending :=
  match cs with
  | [] => ([], .complete)
  | c :: cs =>
    match h : Token.read c cs with
    | .error error => ([], .broken error)
    | .ok (token, rest) =>
      have : rest.length < cs.length + 1 := Nat.lt_succ_of_le (Token.length_read h)
      let (tokens, ending) := scan rest
      (token :: tokens, ending)
termination_by cs.length

/-- Check that end tags close the open elements, innermost first, and stop at the
    first that does not. `opened` holds the names of the open elements. -/
def nest (opened : List (List Char)) : List Token → Ending → List Token × Ending
  | [], ending => ([], ending)
  | token :: tokens, ending =>
    let proceed opened :=
      let (rest, ending) := nest opened tokens ending
      (token :: rest, ending)
    match token with
    | .startTag tag false => proceed (tag.name :: opened)
    | .endTag name => match opened with
      | [] => ([], .broken (.unmatchedEnd name))
      | innermost :: outer =>
        if innermost = name then proceed outer
        else ([], .broken (.mismatchedEnd innermost name))
    | _ => proceed opened

/-- The well-nested tokens of a document, and how they end. -/
def tokens (cs : List Char) : List Token × Ending :=
  let (ts, ending) := scan cs
  nest [] ts ending

end ChipSettings.Xml
