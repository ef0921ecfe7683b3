import ChipSettings.Proofs.Xml.Markup

/-! # Nesting and Joined Text

  How the tokens of a text become well-nested tokens, and these become events.

  - `WellNested`: tokens that close every element they open. Such lists are closed under
    concatenation and under wrapping in an element, and `nest` passes over them.
  - `joinText_joinText`: texts that stand side by side are joined, in any grouping.
  - `normalizeLineEnds_append`: line ends may be normalized piece by piece, as long as no
    piece starts in the middle of a line end.
-/

namespace ChipSettings.Xml

/-! ## Nesting -/

/-- The token neither opens nor closes an element. -/
def Token.isFlat : Token → Bool
  | .startTag _ false => false
  | .endTag _ => false
  | _ => true

/-- The tokens close every element they open, and no other. -/
def WellNested (ts : List Token) : Prop :=
  ∀ (opened : List (List Char)) (more : List Token) (ending : Ending),
    nest opened (ts ++ more) ending = emit ts (nest opened more ending)

namespace WellNested

theorem nil : WellNested [] := fun _ _ _ => rfl

theorem append {ts us : List Token} (ht : WellNested ts) (hu : WellNested us) :
    WellNested (ts ++ us) := by
  intro opened more ending
  rw [List.append_assoc, ht, hu, emit_emit]

/-- A token that opens and closes nothing is well nested. -/
theorem flat {t : Token} (h : t.isFlat = true) : WellNested [t] := by
  intro opened more ending
  cases t with
  | startTag tag selfClosing =>
    cases selfClosing with
    | true => rfl
    | false => exact absurd h (by simp [Token.isFlat])
  | endTag name => exact absurd h (by simp [Token.isFlat])
  | text content => rfl
  | cdata content => rfl
  | reference name => rfl
  | comment => rfl
  | instruction => rfl
  | doctype => rfl

theorem of_isFlat {ts : List Token} (h : ∀ t ∈ ts, t.isFlat = true) : WellNested ts := by
  induction ts with
  | nil => exact nil
  | cons t ts ih =>
    have ht : WellNested [t] := flat (h t List.mem_cons_self)
    exact ht.append (ih fun u hu => h u (List.mem_cons_of_mem t hu))

/-- An element around well-nested tokens. -/
theorem element {ts : List Token} (tag : Tag) (h : WellNested ts) :
    WellNested (.startTag tag false :: (ts ++ [.endTag tag.name])) := by
  intro opened more ending
  -- inside, the element is the innermost one that is open, and its end tag closes it
  have hinside := h (tag.name :: opened) (.endTag tag.name :: more) ending
  have hend : nest (tag.name :: opened) (.endTag tag.name :: more) ending =
      emit [.endTag tag.name] (nest opened more ending) := by
    simp [nest, emit]
  rw [hend, emit_emit] at hinside
  have hstart : nest opened (.startTag tag false :: (ts ++ [.endTag tag.name]) ++ more) ending =
      emit [.startTag tag false] (nest (tag.name :: opened) (ts ++ .endTag tag.name :: more)
        ending) := by
    simp [nest, emit]
  rw [hstart, hinside, emit_emit]
  rfl

theorem flatMap {α : Type} {f : α → List Token} (h : ∀ a, WellNested (f a)) (as : List α) :
    WellNested (as.flatMap f) := by
  induction as with
  | nil => exact nil
  | cons a as ih =>
    rw [List.flatMap_cons]
    exact (h a).append ih

end WellNested

/-- Nesting only ever cuts tokens off at the end. -/
theorem prefix_nest (opened : List (List Char)) (ts : List Token) (ending : Ending) :
    (nest opened ts ending).1 <+: ts := by
  have proceed {t : Token} {ts us : List Token} (h : us <+: ts) : t :: us <+: t :: ts :=
    List.cons_prefix_cons.2 ⟨rfl, h⟩
  induction ts generalizing opened with
  | nil => exact List.prefix_refl []
  | cons t ts ih =>
    cases t with
    | startTag tag selfClosing =>
      cases selfClosing with
      | true => exact proceed (ih opened)
      | false => exact proceed (ih (tag.name :: opened))
    | endTag name =>
      cases opened with
      | nil => exact List.nil_prefix
      | cons innermost outer =>
        unfold nest
        simp only
        split
        · exact proceed (ih outer)
        · exact List.nil_prefix
    | text content => exact proceed (ih opened)
    | cdata content => exact proceed (ih opened)
    | reference name => exact proceed (ih opened)
    | comment => exact proceed (ih opened)
    | instruction => exact proceed (ih opened)
    | doctype => exact proceed (ih opened)

/-! ## Joined Text -/

/-- Texts that stand side by side are one text. -/
theorem joinText_joinText (a b : List Char) (es : List Event) :
    joinText (.ok a) (joinText (.ok b) es) = joinText (.ok (a ++ b)) es := by
  cases es with
  | nil => rfl
  | cons e es =>
    cases e with
    | text content =>
      cases content with
      | error e => rfl
      | ok c =>
        show Event.text (.ok (a ++ (b ++ c))) :: es = Event.text (.ok (a ++ b ++ c)) :: es
        rw [List.append_assoc]
    | start tag => rfl
    | finish => rfl
    | doctype => rfl

/-- Put a text in front of events, unless it is empty. -/
def putText (content : List Char) (es : List Event) : List Event :=
  if content = [] then es else joinText (.ok content) es

theorem joinText_putText (a b : List Char) (es : List Event) :
    joinText (.ok a) (putText b es) = joinText (.ok (a ++ b)) es := by
  unfold putText
  by_cases hb : b = []
  · rw [if_pos hb, hb, List.append_nil]
  · rw [if_neg hb, joinText_joinText]

theorem putText_of_ne_nil {content : List Char} (h : content ≠ []) (es : List Event) :
    putText content es = joinText (.ok content) es := if_neg h

/-! ## Line Ends Piece by Piece -/

theorem normalizeLineEnds_ne_nil {cs : List Char} (h : cs ≠ []) : normalizeLineEnds cs ≠ [] := by
  fun_cases normalizeLineEnds cs <;> simp_all

/-- Normalizing adds nothing but line feeds. -/
theorem mem_normalizeLineEnds {cs : List Char} {c : Char} (h : c ∈ normalizeLineEnds cs) :
    c = '\n' ∨ c ∈ cs := by
  fun_induction normalizeLineEnds cs <;> grind

/-- Normalizing leaves no foreign line end. -/
theorem isForeignLineEnd_of_mem_normalizeLineEnds {cs : List Char} {c : Char}
    (h : c ∈ normalizeLineEnds cs) : isForeignLineEnd c = false := by
  fun_induction normalizeLineEnds cs <;> grind [isForeignLineEnd]

/-- A foreign line end leaves a line feed. -/
theorem lineFeed_mem_normalizeLineEnds {cs : List Char} {c : Char} (hc : c ∈ cs)
    (h : isForeignLineEnd c = true) : '\n' ∈ normalizeLineEnds cs := by
  fun_induction normalizeLineEnds cs <;> grind [isForeignLineEnd]

/-- A character that is no foreign line end stays as it is. -/
theorem normalizeLineEnds_cons {c : Char} (h : isForeignLineEnd c = false) (cs : List Char) :
    normalizeLineEnds (c :: cs) = c :: normalizeLineEnds cs := by
  simp only [isForeignLineEnd, Bool.or_eq_false_iff, beq_eq_false_iff_ne] at h
  obtain ⟨⟨hcr, hnel⟩, hls⟩ := h
  rw [normalizeLineEnds] <;> simp [hcr, hnel, hls]

/-- Line ends may be normalized piece by piece, if no line end is torn apart. -/
theorem normalizeLineEnds_append {b : List Char} (hb : ∀ c ∈ b.head?, c ≠ '\n' ∧ c ≠ '\u0085')
    (a : List Char) : normalizeLineEnds (a ++ b) = normalizeLineEnds a ++ normalizeLineEnds b := by
  fun_induction normalizeLineEnds a with
  | case1 cs ih => simp [normalizeLineEnds, ih]
  | case2 cs ih => simp [normalizeLineEnds, ih]
  | case3 cs hlf hnel ih =>
    -- a carriage return on its own: what follows it, here or in the next piece, is no part of it
    have hnext : ∀ d ds, cs ++ b = d :: ds → d ≠ '\n' ∧ d ≠ '\u0085' := by
      intro d ds hd
      cases cs with
      | nil => exact hb d (by rw [show b = d :: ds from hd]; rfl)
      | cons c cs =>
        obtain rfl : c = d := (List.cons.inj hd).1
        exact ⟨fun h => hlf cs (by rw [h]), fun h => hnel cs (by rw [h])⟩
    rw [List.cons_append, normalizeLineEnds, ih, List.cons_append]
    · intro ds hds
      exact (hnext _ ds hds).1 rfl
    · intro ds hds
      exact (hnext _ ds hds).2 rfl
  | case4 cs ih => simp [normalizeLineEnds, ih]
  | case5 cs ih => simp [normalizeLineEnds, ih]
  | case6 c cs h1 h2 h3 h4 h5 ih =>
    have hc : isForeignLineEnd c = false := by
      simp only [isForeignLineEnd, Bool.or_eq_false_iff, beq_eq_false_iff_ne]
      exact ⟨⟨h3, h4⟩, h5⟩
    rw [List.cons_append, normalizeLineEnds_cons hc, ih, List.cons_append]
  | case7 => rfl

end ChipSettings.Xml
