import ChipSettings.Proofs.Xml.Nesting

/-! # Tokens of a Cut Text

  What is left of the tokens of a text if the text is cut off at any character.

  - `Token.read_append`: a token that was cut off complete is cut off in the same way when
    more follows, unless it is a text that the end of the input ended.
  - `brackets` are the elements that tokens open and close. `brackets_scan_append`: cutting
    a text can only cut brackets off at the end.
-/

namespace ChipSettings.Xml

open Text

/-! ## Finding the Same End -/

section

variable {cs before after : List Char}

/-- A pattern that was found fits into the text. -/
theorem length_pattern_le {pattern : List Char} (h : splitAt? pattern cs = some (before, after)) :
    pattern.length ≤ cs.length := by
  induction cs generalizing before with
  | nil => cases h
  | cons c cs ih =>
    unfold splitAt? at h
    split at h
    · next hfits => exact (List.isPrefixOf_iff_prefix.1 hfits).length_le
    · simp only [Option.map_eq_some_iff, Prod.mk.injEq, Prod.exists] at h
      obtain ⟨b, a, hba, -, rfl⟩ := h
      exact Nat.le_succ_of_le (ih hba)

theorem splitAt?_append {pattern : List Char} (h : splitAt? pattern cs = some (before, after))
    (more : List Char) : splitAt? pattern (cs ++ more) = some (before, after ++ more) := by
  induction cs generalizing before with
  | nil => cases h
  | cons c cs ih =>
    -- the pattern fits into what is there, so that what follows cannot complete it earlier
    have hlength := length_pattern_le h
    have hfits : pattern.isPrefixOf (c :: (cs ++ more)) = pattern.isPrefixOf (c :: cs) := by
      rw [Bool.eq_iff_iff, List.isPrefixOf_iff_prefix, List.isPrefixOf_iff_prefix,
        ← List.cons_append]
      exact ⟨fun hp => List.prefix_of_prefix_length_le hp (List.prefix_append _ _) hlength,
        fun hp => hp.trans (List.prefix_append _ _)⟩
    unfold splitAt? at h
    rw [List.cons_append, splitAt?, hfits]
    split at h
    · next hp =>
      rw [if_pos hp, ← List.cons_append, List.drop_append_of_le_length hlength]
      simp only [Option.some.injEq, Prod.mk.injEq] at h
      rw [h.1, h.2]
    · next hp =>
      rw [if_neg hp]
      simp only [Option.map_eq_some_iff, Prod.mk.injEq, Prod.exists] at h
      obtain ⟨b, a, hba, rfl, rfl⟩ := h
      rw [ih hba]
      rfl

theorem splitTag?_append {quote : Option Char} (h : splitTag? quote cs = some (before, after))
    (more : List Char) : splitTag? quote (cs ++ more) = some (before, after ++ more) := by
  induction cs generalizing quote before with
  | nil => cases h
  | cons c cs ih =>
    have cut {next : Option Char}
        (h : (splitTag? next cs).map (fun r => (c :: r.1, r.2)) = some (before, after)) :
        (splitTag? next (cs ++ more)).map (fun r => (c :: r.1, r.2)) =
          some (before, after ++ more) := by
      simp only [Option.map_eq_some_iff, Prod.mk.injEq] at h
      obtain ⟨⟨b, a⟩, hba, rfl, rfl⟩ := h
      rw [ih hba]
      rfl
    rw [List.cons_append]
    unfold splitTag? at h ⊢
    simp only at h ⊢
    split at h
    · split at h
      · next hq => rw [if_pos hq]; exact cut h
      · next hq => rw [if_neg hq]; exact cut h
    · split at h
      · next hclose =>
        simp only [Option.some.injEq, Prod.mk.injEq] at h
        rw [if_pos hclose, h.1, h.2]
      · next hclose =>
        rw [if_neg hclose]
        split at h
        · next hq => rw [if_pos hq]; exact cut h
        · next hq => rw [if_neg hq]; exact cut h

theorem splitBalanced?_append {depth : Nat} (h : splitBalanced? depth cs = some (before, after))
    (more : List Char) : splitBalanced? depth (cs ++ more) = some (before, after ++ more) := by
  induction cs generalizing depth before with
  | nil => cases h
  | cons c cs ih =>
    have cut {next : Nat}
        (h : (splitBalanced? next cs).map (fun r => (c :: r.1, r.2)) = some (before, after)) :
        (splitBalanced? next (cs ++ more)).map (fun r => (c :: r.1, r.2)) =
          some (before, after ++ more) := by
      simp only [Option.map_eq_some_iff, Prod.mk.injEq] at h
      obtain ⟨⟨b, a⟩, hba, rfl, rfl⟩ := h
      rw [ih hba]
      rfl
    rw [List.cons_append]
    unfold splitBalanced? at h ⊢
    simp only at h ⊢
    split at h
    · next hclose =>
      rw [if_pos hclose]
      cases depth with
      | zero =>
        simp only [Option.some.injEq, Prod.mk.injEq] at h
        simp only [h.1, h.2]
      | succ d => exact cut h
    · next hclose =>
      rw [if_neg hclose]
      split at h
      · next hopen => rw [if_pos hopen]; exact cut h
      · next hopen => rw [if_neg hopen]; exact cut h

end

/-! ## Reading the Same Token -/

section

variable {cs rest : List Char} {t : Token}

/-- A run that is followed by something ends there, whatever follows that. -/
theorem takeWhile_dropWhile_append {p : Char → Bool} (h : cs.dropWhile p ≠ []) (more : List Char) :
    (cs ++ more).takeWhile p = cs.takeWhile p ∧
      (cs ++ more).dropWhile p = cs.dropWhile p ++ more := by
  have hlength : (cs.takeWhile p).length ≠ cs.length := by
    have hsum := congrArg List.length (List.takeWhile_append_dropWhile (p := p) (l := cs))
    have hpos := List.length_pos_iff.2 h
    rw [List.length_append] at hsum
    omega
  rw [List.takeWhile_append, if_neg hlength, List.dropWhile_append, if_neg (by simpa using h)]
  exact ⟨rfl, rfl⟩

theorem readReference_append (h : readReference cs = .ok (t, rest)) (more : List Char) :
    readReference (cs ++ more) = .ok (t, rest ++ more) := by
  unfold readReference at h ⊢
  simp only at h ⊢
  split at h
  · next after hafter =>
    obtain ⟨htake, hdrop⟩ := takeWhile_dropWhile_append (by rw [hafter]; simp) more
    rw [htake, hdrop, hafter]
    cases h
    rfl
  · cases h

theorem readDoctype_append (h : readDoctype cs = .ok (t, rest)) (more : List Char) :
    readDoctype (cs ++ more) = .ok (t, rest ++ more) := by
  unfold readDoctype at h ⊢
  split at h
  · cases h
  · next hs =>
    rw [splitBalanced?_append hs more]
    simp only at h ⊢
    split at h
    · next hword =>
      rw [if_pos hword]
      split at h
      · cases h
      · next hname => rw [if_neg hname]; cases h; rfl
    · cases h

theorem readComment_append (h : readComment cs = .ok (t, rest)) (more : List Char) :
    readComment (cs ++ more) = .ok (t, rest ++ more) := by
  unfold readComment at h
  split at h
  · split at h
    · next hs =>
      rw [List.cons_append, readComment, splitAt?_append hs more]
      cases h
      rfl
    · cases h
  · cases h

theorem readCData_append (h : readCData cs = .ok (t, rest)) (more : List Char) :
    readCData (cs ++ more) = .ok (t, rest ++ more) := by
  unfold readCData at h
  split at h
  · split at h
    · next hs =>
      simp only [List.cons_append]
      rw [readCData, splitAt?_append hs more]
      cases h
      rfl
    · cases h
  · cases h

theorem readDeclaration_append (h : readDeclaration cs = .ok (t, rest)) (more : List Char) :
    readDeclaration (cs ++ more) = .ok (t, rest ++ more) := by
  unfold readDeclaration at h
  split at h
  · exact readComment_append h more
  · exact readCData_append h more
  · exact readDoctype_append h more
  · exact readDoctype_append h more
  · cases h

theorem readInstruction_append (h : readInstruction cs = .ok (t, rest)) (more : List Char) :
    readInstruction (cs ++ more) = .ok (t, rest ++ more) := by
  unfold readInstruction at h ⊢
  split at h
  · next hs =>
    rw [splitAt?_append hs more]
    cases h
    rfl
  · cases h

theorem readEndTag_append (h : readEndTag cs = .ok (t, rest)) (more : List Char) :
    readEndTag (cs ++ more) = .ok (t, rest ++ more) := by
  unfold readEndTag at h ⊢
  split at h
  · next hs =>
    rw [splitTag?_append hs more]
    cases h
    rfl
  · cases h

theorem readStartTag_append (h : readStartTag cs = .ok (t, rest)) (more : List Char) :
    readStartTag (cs ++ more) = .ok (t, rest ++ more) := by
  unfold readStartTag at h ⊢
  split at h
  · next hs =>
    rw [splitTag?_append hs more]
    cases h
    rfl
  · cases h

theorem readMarkup_append (h : readMarkup cs = .ok (t, rest)) (more : List Char) :
    readMarkup (cs ++ more) = .ok (t, rest ++ more) := by
  cases cs with
  | nil => cases h
  | cons c cs =>
    rw [List.cons_append]
    unfold readMarkup at h ⊢
    split at h
    · next hnil => cases hnil
    · next hbang =>
      cases hbang
      exact readDeclaration_append h more
    · next hmark =>
      cases hmark
      exact readInstruction_append h more
    · next hslash =>
      cases hslash
      exact readEndTag_append h more
    · next hbang hmark hslash =>
      -- the first character decides, and it is still the first
      split
      · next hnil => cases hnil
      · next heq => exact absurd (List.cons.inj heq).1 fun hc => hbang cs (by rw [hc])
      · next heq => exact absurd (List.cons.inj heq).1 fun hc => hmark cs (by rw [hc])
      · next heq => exact absurd (List.cons.inj heq).1 fun hc => hslash cs (by rw [hc])
      · exact readStartTag_append h more

/-- A token is cut off in the same way when more follows, unless it is a text that nothing
    but the end of the input ended. -/
theorem Token.read_append {c : Char} (h : Token.read c cs = .ok (t, rest)) (more : List Char) :
    Token.read c (cs ++ more) = .ok (t, rest ++ more) ∨
      ∃ content, t = .text content ∧ rest = [] := by
  unfold Token.read at h ⊢
  split at h
  · next hc => rw [if_pos hc]; exact .inl (readMarkup_append h more)
  · next hc =>
    rw [if_neg hc]
    split at h
    · next hc => rw [if_pos hc]; exact .inl (readReference_append h more)
    · next hc =>
      rw [if_neg hc]
      -- a text ends at the next markup, or at the end of the input
      by_cases hend : cs.dropWhile isTextChar = []
      · right
        cases h
        exact ⟨_, rfl, hend⟩
      · left
        obtain ⟨htake, hdrop⟩ := takeWhile_dropWhile_append hend more
        rw [htake, hdrop]
        cases h
        rfl

end

/-! ## Brackets -/

/-- An element is opened or closed. -/
inductive Bracket where
  | opens
  | closes
deriving DecidableEq

/-- What a token opens and closes. -/
def Token.brackets : Token → List Bracket
  | .startTag _ false => [.opens]
  | .startTag _ true => [.opens, .closes]
  | .endTag _ => [.closes]
  | _ => []

/-- What an event opens and closes. -/
def Event.brackets : Event → List Bracket
  | .start _ => [.opens]
  | .finish => [.closes]
  | _ => []

/-- What tokens open and close. -/
def brackets (ts : List Token) : List Bracket := ts.flatMap Token.brackets

/-- What events open and close. -/
def eventBrackets (es : List Event) : List Bracket := es.flatMap Event.brackets

/-- Events open and close what their tokens do. -/
theorem eventBrackets_events (ts : List Token) : eventBrackets (events ts) = brackets ts := by
  have join (piece : Except XmlError (List Char)) (es : List Event) :
      eventBrackets (joinText piece es) = eventBrackets es := by
    cases es with
    | nil => rfl
    | cons e es => cases e <;> rfl
  induction ts with
  | nil => rfl
  | cons t ts ih =>
    cases t with
    | text content => exact (join _ _).trans ih
    | cdata content => exact (join _ _).trans ih
    | reference name => exact (join _ _).trans ih
    | comment => exact ih
    | instruction => exact ih
    | doctype => exact ih
    | startTag tag selfClosing =>
      cases selfClosing with
      | true => exact congrArg (Bracket.opens :: Bracket.closes :: ·) ih
      | false => exact congrArg (Bracket.opens :: ·) ih
    | endTag name => exact congrArg (Bracket.closes :: ·) ih

/-- The brackets of a prefix are a prefix. -/
theorem prefix_brackets {ts us : List Token} (h : ts <+: us) : brackets ts <+: brackets us := by
  obtain ⟨vs, rfl⟩ := h
  exact ⟨brackets vs, by simp [brackets]⟩

/-- Cutting a text off cuts brackets off at the end, and changes none before. -/
theorem brackets_scan_append (cs more : List Char) :
    brackets (scan cs).1 <+: brackets (scan (cs ++ more)).1 := by
  induction hn : cs.length using Nat.strongRecOn generalizing cs with
  | ind n ih =>
    cases cs with
    | nil =>
      rw [scan_nil]
      exact List.nil_prefix
    | cons c cs =>
      cases hread : Token.read c cs with
      | error e =>
        rw [scan_of_error hread]
        exact List.nil_prefix
      | ok r =>
        obtain ⟨t, rest⟩ := r
        rw [scan_of_read hread]
        rcases Token.read_append hread more with happend | ⟨content, rfl, rfl⟩
        · have hrest : rest.length < n := by
            have := Token.length_read hread
            rw [← hn, List.length_cons]
            omega
          obtain ⟨bs, hbs⟩ := ih rest.length hrest rest rfl
          rw [List.cons_append, scan_of_read happend]
          exact ⟨bs, by simpa [emit, brackets] using hbs⟩
        · -- the last text is shorter than it would have been, and opens and closes nothing
          rw [scan_nil]
          exact List.nil_prefix

/-! ## Staying Inside an Element -/

/-- Inside `depth` elements, the brackets do not close the outermost of them. -/
def StaysInside : Nat → List Bracket → Prop
  | _, [] => True
  | depth, .opens :: bs => StaysInside (depth + 1) bs
  | depth, .closes :: bs => 0 < depth ∧ StaysInside (depth - 1) bs

/-- Less of what stays inside stays inside. -/
theorem StaysInside.of_append {depth : Nat} {as bs : List Bracket}
    (h : StaysInside depth (as ++ bs)) : StaysInside depth as := by
  induction as generalizing depth with
  | nil => trivial
  | cons a as ih =>
    cases a with
    | opens =>
      show StaysInside (depth + 1) as
      exact ih h
    | closes =>
      show 0 < depth ∧ StaysInside (depth - 1) as
      exact ⟨h.1, ih h.2⟩

/-- Nested tokens never close more than is open. -/
theorem staysInside_nest (opened : List (List Char)) (ts : List Token) (ending : Ending) :
    StaysInside opened.length (brackets (nest opened ts ending).1) := by
  induction ts generalizing opened with
  | nil => trivial
  | cons t ts ih =>
    cases t with
    | startTag tag selfClosing =>
      cases selfClosing with
      | true => exact ⟨Nat.succ_pos _, ih opened⟩
      | false => exact ih (tag.name :: opened)
    | endTag name =>
      cases opened with
      | nil => trivial
      | cons innermost outer =>
        unfold nest
        simp only
        split
        · exact ⟨Nat.succ_pos _, ih outer⟩
        · trivial
    | text content => exact ih opened
    | cdata content => exact ih opened
    | reference name => exact ih opened
    | comment => exact ih opened
    | instruction => exact ih opened
    | doctype => exact ih opened

end ChipSettings.Xml
