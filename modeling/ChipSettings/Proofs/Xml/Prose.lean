import ChipSettings.Proofs.Outcome
import ChipSettings.Proofs.Xml.Nesting

/-! # Text as It Is Spelled

  Between tags stands prose: runs of text, with references, character data sections, comments
  and instructions in between.

  - `Prose`: a text, by its parts. `Prose.value` is the text that it stands for.
  - `splitAt?_of_not_inside`: a comment, a section or an instruction reaches up to the first
    occurrence of what ends it.
  - `scan_prose`: prose gives its tokens, up to the next tag.
  - `padded_events`: to a reader, prose in front of a tag is one text or none.
-/

namespace ChipSettings.Xml

open Text

/-! ## Where Markup Ends -/

/-- A pattern is found behind the first text that does not hold it, if its last character
    stands nowhere else in it. -/
theorem splitAt?_of_not_inside {body content : List Char} {last : Char} (hlast : last ∉ body)
    (h : ¬ body ++ [last] <:+: content) (rest : List Char) :
    splitAt? (body ++ [last]) (content ++ (body ++ last :: rest)) = some (content, rest) := by
  have hsame : body ++ last :: rest = body ++ [last] ++ rest := by simp
  induction content with
  | nil =>
    have hstart : (body ++ [last]).isPrefixOf (body ++ last :: rest) = true := by
      rw [List.isPrefixOf_iff_prefix, hsame]
      exact List.prefix_append _ _
    have hne : body ++ last :: rest ≠ [] :=
      List.append_ne_nil_of_right_ne_nil _ (List.cons_ne_nil _ _)
    obtain ⟨c, cs, hcs⟩ := List.exists_cons_of_ne_nil hne
    rw [List.nil_append, hcs, splitAt?, ← hcs, if_pos hstart, hsame, List.drop_left]
  | cons c content ih =>
    have hnot :
        ¬ (body ++ [last]).isPrefixOf (c :: (content ++ (body ++ last :: rest))) = true := by
      rw [List.isPrefixOf_iff_prefix, ← List.cons_append, hsame]
      intro hstart
      rcases List.prefix_or_prefix_of_prefix hstart (List.prefix_append (c :: content) _) with
        hinside | ⟨tail, htail⟩
      · exact h hinside.isInfix
      · -- otherwise the pattern starts in the text and goes on behind it, with a tail that the
        -- pattern starts with, too: its last character stands in the middle as well
        rw [← htail, List.prefix_append_right_inj] at hstart
        rw [htail] at hstart
        have htail_ne : tail ≠ [] := by
          rintro rfl
          rw [List.append_nil] at htail
          exact h (htail ▸ List.infix_refl _)
        have hmem : last ∈ tail := by
          rcases List.eq_nil_or_concat tail with hnil | ⟨before, c', hconcat⟩
          · exact absurd hnil htail_ne
          · have hend := congrArg List.getLast? htail
            rw [hconcat, List.concat_eq_append, ← List.append_assoc, List.getLast?_concat,
              List.getLast?_concat] at hend
            rw [hconcat, List.concat_eq_append, Option.some.inj hend]
            exact List.mem_append_right _ (List.mem_singleton_self _)
        have hlength := congrArg List.length htail
        simp only [List.length_append, List.length_cons, List.length_nil] at hlength
        have hbody : tail <+: body := by
          refine List.prefix_of_prefix_length_le hstart ?_ (by omega)
          rw [List.append_assoc]
          exact List.prefix_append _ _
        exact hlast (hbody.subset hmem)
    have ih := ih fun hlater => h (hlater.trans (List.infix_cons (List.infix_refl content)))
    rw [List.cons_append, splitAt?, if_neg hnot, ih]
    rfl

/-! ## References -/

/-- A character that could end a reference before its semicolon, or the semicolon itself. -/
def endsReference (c : Char) : Bool := c == ';' || c == '&' || c == '<'

theorem endsReference_of_digitValue? {base : Nat} {c : Char} {d : Nat}
    (h : digitValue? base c = some d) : endsReference c = false := by
  by_cases hend : endsReference c = true
  · simp only [endsReference, Bool.or_eq_true, beq_iff_eq] at hend
    rcases hend with (rfl | rfl) | rfl
    · cases h
    · cases h
    · cases h
  · exact eq_false_of_ne_true hend

theorem endsReference_of_readDigits {base value n : Nat} {cs : List Char}
    (h : readDigits base value cs = .ok n) : ∀ c ∈ cs, endsReference c = false := by
  induction cs generalizing value with
  | nil => exact fun _ hc => absurd hc List.not_mem_nil
  | cons c cs ih =>
    unfold readDigits at h
    split at h
    · cases h
    · next d hdigit =>
      simp only at h
      split at h
      · intro c' hc'
        rcases List.mem_cons.1 hc' with rfl | hc'
        · exact endsReference_of_digitValue? hdigit
        · exact ih h c' hc'
      · cases h

theorem endsReference_of_readUnsigned {base n : Nat} {cs : List Char}
    (h : readUnsigned base cs = .ok n) : ∀ c ∈ cs, endsReference c = false := by
  unfold readUnsigned at h
  split at h
  · cases h
  · cases h
  · cases h
  · exact endsReference_of_readDigits h

theorem endsReference_of_readCharacter {cs : List Char} {c : Char}
    (h : readCharacter cs = .ok c) : ∀ d ∈ cs, endsReference d = false := by
  unfold readCharacter at h
  split at h
  · intro d hd
    obtain ⟨n, hn, -⟩ := exists_of_bind_eq_ok h
    rcases List.mem_cons.1 hd with rfl | hd
    · rfl
    · exact endsReference_of_readUnsigned hn d hd
  · obtain ⟨n, hn, -⟩ := exists_of_bind_eq_ok h
    exact endsReference_of_readUnsigned hn

/-- A reference that stands for a character holds no character that would end it. -/
theorem endsReference_of_resolve {name : List Char} {c : Char} (h : resolve name = .ok c) :
    ∀ d ∈ name, endsReference d = false := by
  unfold resolve at h
  split at h
  · next number =>
    intro d hd
    rcases List.mem_cons.1 hd with rfl | hd
    · rfl
    · exact endsReference_of_readCharacter (eq_ok_of_mapError_eq_ok h) d hd
  · split at h
    · next hentity =>
      unfold entity? at hentity
      split at hentity
      all_goals cases hentity
      all_goals simp [endsReference]
    · cases h

/-! ## Runs -/

/-- A blank of the markup is a text character. -/
theorem isTextChar_of_isMarkupSpace {c : Char} (h : isMarkupSpace c = true) :
    isTextChar c = true := by
  simp only [isMarkupSpace, Bool.or_eq_true, beq_iff_eq] at h
  rcases h with ((rfl | rfl) | rfl) | rfl
  · rfl
  · rfl
  · rfl
  · rfl

/-- A run of text characters, perhaps empty. -/
structure Run where
  chars : List Char
  all_isTextChar : chars.all isTextChar = true

namespace Run

theorem isTextChar_of_mem (run : Run) : ∀ c ∈ run.chars, isTextChar c = true :=
  List.all_eq_true.1 run.all_isTextChar

/-- A run of no characters. -/
def empty : Run := ⟨[], rfl⟩

/-- An empty run is no token. -/
def tokens (run : Run) : List Token := if run.chars = [] then [] else [.text run.chars]

/-- The text of a run. -/
def value (run : Run) : List Char := normalizeLineEnds run.chars

variable (run : Run)

theorem scan_run {rest : List Char} (hrest : ∀ c ∈ rest.head?, isTextChar c = false) :
    scan (run.chars ++ rest) = emit run.tokens (scan rest) := by
  unfold tokens
  by_cases hempty : run.chars = []
  · rw [if_pos hempty, hempty]
    rfl
  · rw [if_neg hempty, scan_text hempty run.isTextChar_of_mem hrest]

theorem isFlat_tokens : ∀ t ∈ run.tokens, t.isFlat = true := by
  intro t ht
  unfold tokens at ht
  split at ht
  · cases ht
  · rw [List.mem_singleton.1 ht]
    rfl

theorem events_tokens (ts : List Token) :
    events (run.tokens ++ ts) = putText run.value (events ts) := by
  unfold tokens
  by_cases hempty : run.chars = []
  · rw [if_pos hempty, value, hempty]
    rfl
  · rw [if_neg hempty, value, putText_of_ne_nil (normalizeLineEnds_ne_nil hempty)]
    rfl

end Run

/-! ## Pieces -/

/-- Markup inside a text. -/
inductive Piece where
  /-- A reference to a character. -/
  | reference (name : List Char) (c : Char) (h : resolve name = .ok c)
  /-- A character data section. -/
  | cdata (content : List Char) (h : ¬ [']', ']', '>'] <:+: content)
  | comment (content : List Char) (h : ¬ ['-', '-', '>'] <:+: content)
  /-- A processing instruction, the declaration of a document included. -/
  | instruction (content : List Char) (h : ¬ ['?', '>'] <:+: '?' :: content)

namespace Piece

/-- The piece as it is spelled. -/
def render : Piece → List Char
  | reference name _ _ => '&' :: (name ++ [';'])
  | cdata content _ =>
    '<' :: '!' :: '[' :: 'C' :: 'D' :: 'A' :: 'T' :: 'A' :: '[' :: (content ++ [']', ']', '>'])
  | comment content _ => '<' :: '!' :: '-' :: '-' :: (content ++ ['-', '-', '>'])
  | instruction content _ => '<' :: '?' :: (content ++ ['?', '>'])

def token : Piece → Token
  | reference name _ _ => .reference name
  | cdata content _ => .cdata content
  | comment _ _ => .comment
  | instruction _ _ => .instruction

/-- What the piece adds to the text. -/
def value : Piece → List Char
  | reference _ c _ => [c]
  | cdata content _ => normalizeLineEnds content
  | comment _ _ => []
  | instruction _ _ => []

/-- Is the piece no text at all? -/
def isSilent : Piece → Bool
  | comment _ _ => true
  | instruction _ _ => true
  | _ => false

variable (piece : Piece)

/-- A silent piece adds nothing. -/
theorem value_of_isSilent (h : piece.isSilent = true) : piece.value = [] := by
  cases piece with
  | reference name c _ => cases h
  | cdata content _ => cases h
  | comment content _ => rfl
  | instruction content _ => rfl

theorem isFlat_token : piece.token.isFlat = true := by
  cases piece <;> rfl

/-- A piece is no text character. -/
theorem isTextChar_head?_render (rest : List Char) :
    ∀ c ∈ (piece.render ++ rest).head?, isTextChar c = false := by
  intro c hc
  cases piece with
  | reference name d h => cases hc; rfl
  | cdata content h => cases hc; rfl
  | comment content h => cases hc; rfl
  | instruction content h => cases hc; rfl

/-- A piece gives its token, whatever follows. -/
theorem scan_piece (rest : List Char) :
    scan (piece.render ++ rest) = emit [piece.token] (scan rest) := by
  cases piece with
  | reference name c h =>
    have hname : ∀ d ∈ name, d ≠ ';' ∧ d ≠ '&' ∧ d ≠ '<' := by
      intro d hd
      simpa [endsReference, and_assoc] using endsReference_of_resolve h d hd
    rw [token, ← scan_reference hname]
    simp [render]
  | cdata content h =>
    have hend : splitAt? [']', ']', '>'] (content ++ ([']', ']'] ++ '>' :: rest)) =
        some (content, rest) := by
      show splitAt? ([']', ']'] ++ ['>']) _ = _
      exact splitAt?_of_not_inside (by decide) h rest
    have hrender : (cdata content h).render ++ rest = '<' :: '!' :: '[' :: 'C' :: 'D' :: 'A' ::
        'T' :: 'A' :: '[' :: (content ++ ([']', ']'] ++ '>' :: rest)) := by simp [render]
    rw [hrender]
    apply scan_of_read
    show readCData ('C' :: 'D' :: 'A' :: 'T' :: 'A' :: '[' :: (content ++ _)) = _
    rw [readCData, hend]
    rfl
  | comment content h =>
    have hend : splitAt? ['-', '-', '>'] (content ++ (['-', '-'] ++ '>' :: rest)) =
        some (content, rest) := by
      show splitAt? (['-', '-'] ++ ['>']) _ = _
      exact splitAt?_of_not_inside (by decide) h rest
    have hrender : (comment content h).render ++ rest = '<' :: '!' :: '-' :: '-' ::
        (content ++ (['-', '-'] ++ '>' :: rest)) := by simp [render]
    rw [hrender]
    apply scan_of_read
    show readComment ('-' :: (content ++ _)) = _
    rw [readComment, hend]
    rfl
  | instruction content h =>
    have hend : splitAt? ['?', '>'] ('?' :: content ++ (['?'] ++ '>' :: rest)) =
        some ('?' :: content, rest) := by
      show splitAt? (['?'] ++ ['>']) _ = _
      exact splitAt?_of_not_inside (by decide) h rest
    have hrender : (instruction content h).render ++ rest =
        '<' :: ('?' :: content ++ (['?'] ++ '>' :: rest)) := by simp [render]
    rw [hrender]
    apply scan_of_read
    show readInstruction ('?' :: content ++ _) = _
    rw [readInstruction, hend]
    rfl

/-- What a piece does to the events behind it. -/
theorem events_token (ts : List Token) :
    events (piece.token :: ts) =
      if piece.isSilent then events ts else joinText (.ok piece.value) (events ts) := by
  cases piece with
  | reference name c h =>
    show joinText ((resolve name).map ([·])) (events ts) = _
    rw [h]
    rfl
  | cdata content h => rfl
  | comment content h => rfl
  | instruction content h => rfl

end Piece

/-! ## Prose -/

/-- A text: runs, with a piece between any two. -/
inductive Prose where
  | last (run : Run)
  | next (run : Run) (piece : Piece) (rest : Prose)

namespace Prose

/-- No text at all. -/
def empty : Prose := .last Run.empty

/-- The prose as it is spelled. -/
def render : Prose → List Char
  | last run => run.chars
  | next run piece rest => run.chars ++ (piece.render ++ rest.render)

def tokens : Prose → List Token
  | last run => run.tokens
  | next run piece rest => run.tokens ++ piece.token :: rest.tokens

/-- The text that the prose stands for. -/
def value : Prose → List Char
  | last run => run.value
  | next run piece rest => run.value ++ (piece.value ++ rest.value)

/-- Are there only blanks of the markup, comments and instructions? -/
def isBlank : Prose → Bool
  | last run => run.chars.all isMarkupSpace
  | next run piece rest => run.chars.all isMarkupSpace && piece.isSilent && rest.isBlank

variable (prose : Prose)

theorem wellNested_tokens : WellNested prose.tokens := by
  induction prose with
  | last run => exact .of_isFlat run.isFlat_tokens
  | next run piece rest ih =>
    have hpiece : WellNested [piece.token] := .flat piece.isFlat_token
    exact (WellNested.of_isFlat run.isFlat_tokens).append (hpiece.append ih)

/-- Prose gives its tokens, up to the next tag. -/
theorem scan_prose {rest : List Char} (hrest : ∀ c ∈ rest.head?, isTextChar c = false) :
    scan (prose.render ++ rest) = emit prose.tokens (scan rest) := by
  induction prose with
  | last run => exact run.scan_run hrest
  | next run piece after ih =>
    rw [render, List.append_assoc, List.append_assoc,
      run.scan_run (piece.isTextChar_head?_render _), piece.scan_piece, ih, emit_emit, emit_emit,
      tokens, List.append_assoc]
    rfl

/-- Blank prose stands for blanks. -/
theorem isMarkupSpace_of_mem_value (h : prose.isBlank = true) :
    prose.value.all isMarkupSpace = true := by
  have hrun {run : Run} (hrun : run.chars.all isMarkupSpace = true) :
      run.value.all isMarkupSpace = true := by
    rw [List.all_eq_true] at hrun ⊢
    intro c hc
    rcases mem_normalizeLineEnds hc with rfl | hc
    · rfl
    · exact hrun c hc
  induction prose with
  | last run => exact hrun h
  | next run piece rest ih =>
    simp only [isBlank, Bool.and_eq_true] at h
    rw [value, piece.value_of_isSilent h.1.2, List.nil_append, List.all_append, hrun h.1.1, ih h.2]
    rfl

end Prose

/-! ## Prose as Events -/

/-- Do the events start with a text? -/
def startsWithText : List Event → Bool
  | .text _ :: _ => true
  | _ => false

/-- A text in front of events: an event, or nothing if there is no text at all. -/
def Padded (value : List Char) (es padded : List Event) : Prop :=
  padded = .text (.ok value) :: es ∨ (padded = es ∧ value = [])

namespace Padded

variable {value : List Char} {es padded : List Event}

/-- Nothing in front of events. -/
theorem none (es : List Event) : Padded [] es es := .inr ⟨rfl, rfl⟩

/-- A text joins the text behind it; behind that stands no further text. -/
theorem joinText (hes : startsWithText es = false) (h : Padded value es padded)
    (front : List Char) : Padded (front ++ value) es (joinText (.ok front) padded) := by
  left
  rcases h with rfl | ⟨rfl, rfl⟩
  · rfl
  · rw [List.append_nil]
    cases padded with
    | nil => rfl
    | cons e es =>
      cases e with
      | text content => cases hes
      | start tag => rfl
      | finish => rfl
      | doctype => rfl

theorem putText (hes : startsWithText es = false) (h : Padded value es padded)
    (front : List Char) : Padded (front ++ value) es (putText front padded) := by
  by_cases hfront : front = []
  · rw [hfront]
    exact h
  · rw [putText_of_ne_nil hfront]
    exact h.joinText hes front

end Padded

/-- To a reader, prose in front of anything but text is one text or none. -/
theorem Prose.padded_events (prose : Prose) {ts : List Token}
    (hts : startsWithText (events ts) = false) :
    Padded prose.value (events ts) (events (prose.tokens ++ ts)) := by
  induction prose with
  | last run =>
    have hrun := Padded.putText hts (.none _) run.value
    rwa [List.append_nil, ← run.events_tokens] at hrun
  | next run piece rest ih =>
    rw [tokens, List.append_assoc, run.events_tokens, List.cons_append, piece.events_token]
    refine Padded.putText hts ?_ run.value
    split
    · next hsilent =>
      rw [piece.value_of_isSilent hsilent]
      exact ih
    · exact ih.joinText hts piece.value

end ChipSettings.Xml
