import ChipSettings.Xml.Event

/-! # Tokens Piece by Piece

  What the tokenizer makes of a text that is put together from pieces.

  - `takeWhile_run` and `dropWhile_run`: a run of characters reaches up to the first one of
    another class.
  - `scan_of_read`: a token stands before the tokens of what follows it. So the tokens of a
    text are put together from those of its pieces, the first of which are runs of text and
    references.
-/

namespace ChipSettings.Xml

open Text

/-! ## Runs of Characters -/

section Runs

variable {class? : Char → Bool} {run rest : List Char}

/-- A run of characters of a class reaches up to the first one of another. -/
theorem takeWhile_run (hrun : ∀ c ∈ run, class? c = true)
    (hrest : ∀ c ∈ rest.head?, class? c = false) : (run ++ rest).takeWhile class? = run := by
  rw [List.takeWhile_append_of_pos hrun]
  cases rest with
  | nil => simp
  | cons c rest => simp [hrest c rfl]

/-- What follows a run of characters of a class. -/
theorem dropWhile_run (hrun : ∀ c ∈ run, class? c = true)
    (hrest : ∀ c ∈ rest.head?, class? c = false) : (run ++ rest).dropWhile class? = rest := by
  rw [List.dropWhile_append_of_pos hrun]
  cases rest with
  | nil => rfl
  | cons c rest => simp [hrest c rfl]

end Runs

/-! ## Tokens Piece by Piece -/

/-- Put tokens in front of the tokens of a text. -/
def emit (ts : List Token) (r : List Token × Ending) : List Token × Ending := (ts ++ r.1, r.2)

@[simp] theorem emit_emit (ts us : List Token) (r : List Token × Ending) :
    emit ts (emit us r) = emit (ts ++ us) r := by
  simp [emit]

@[simp] theorem scan_nil : scan [] = ([], .complete) := by
  unfold scan
  rfl

/-- A token that is read stands before the tokens of what follows it. -/
theorem scan_of_read {c : Char} {cs rest : List Char} {t : Token}
    (h : Token.read c cs = .ok (t, rest)) : scan (c :: cs) = emit [t] (scan rest) := by
  rw [scan]
  split
  · next he => rw [h] at he; cases he
  · next ht =>
    rw [h] at ht
    cases ht
    rfl

/-- A token that cannot be read ends the tokens. -/
theorem scan_of_error {c : Char} {cs : List Char} {error : XmlError}
    (h : Token.read c cs = .error error) : scan (c :: cs) = ([], .broken error) := by
  rw [scan]
  split
  · next he =>
    rw [h] at he
    cases he
    rfl
  · next ht => rw [h] at ht; cases ht

/-- A run of text reaches up to the next markup. -/
theorem scan_text {run rest : List Char} (hne : run ≠ []) (hrun : ∀ c ∈ run, isTextChar c = true)
    (hrest : ∀ c ∈ rest.head?, isTextChar c = false) :
    scan (run ++ rest) = emit [.text run] (scan rest) := by
  obtain ⟨c, run, rfl⟩ := List.exists_cons_of_ne_nil hne
  have hc : isTextChar c = true := hrun c List.mem_cons_self
  have htail : ∀ d ∈ run, isTextChar d = true := fun d hd => hrun d (List.mem_cons_of_mem c hd)
  simp only [isTextChar, Bool.and_eq_true, bne_iff_ne] at hc
  apply scan_of_read
  show Token.read c (run ++ rest) = _
  simp [Token.read, hc.1, hc.2, takeWhile_run htail hrest, dropWhile_run htail hrest]

/-- A reference reaches up to its semicolon. -/
theorem scan_reference {name : List Char}
    (hname : ∀ c ∈ name, c ≠ ';' ∧ c ≠ '&' ∧ c ≠ '<') (rest : List Char) :
    scan ('&' :: (name ++ ';' :: rest)) = emit [.reference name] (scan rest) := by
  have hin : ∀ c ∈ name, (c != ';' && c != '&' && c != '<') = true := by
    intro c hc
    simp [hname c hc]
  have hend : ∀ c ∈ (';' :: rest).head?, (c != ';' && c != '&' && c != '<') = false := by
    simp
  apply scan_of_read
  show readReference (name ++ ';' :: rest) = _
  unfold readReference
  simp only [takeWhile_run hin hend, dropWhile_run hin hend]

end ChipSettings.Xml
