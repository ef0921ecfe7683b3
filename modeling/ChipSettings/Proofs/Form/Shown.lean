import ChipSettings.Proofs.Number.ReadBack
import ChipSettings.Validation

/-! # Shown Values

  A field shows its value as a text, and the text is read as that value again.

  - The texts hold no blanks, so that trimming leaves them as they are.
  - `readInteger_read` and `readNumber_read`: what a field shows is what is read from it.
-/

namespace ChipSettings

open Number Text

/-! ## Trimming -/

/-- Trimming drops nothing from a text with no character of the class at either end. -/
theorem trimBoth_of_ends {class? : Char → Bool} {cs : List Char}
    (hhead : ∀ c ∈ cs.head?, class? c = false) (hlast : ∀ c ∈ cs.getLast?, class? c = false) :
    trimBoth class? cs = cs := by
  have hkeep (ds : List Char) (hds : ∀ c ∈ ds.head?, class? c = false) :
      ds.dropWhile class? = ds := by
    cases ds with
    | nil => rfl
    | cons d ds => rw [List.dropWhile_cons_of_neg (by simp [hds d rfl])]
  rw [trimBoth, trimRight, hkeep cs hhead, hkeep cs.reverse, List.reverse_reverse]
  rwa [List.head?_reverse]

/-- Trimming drops nothing from a text without characters of the class. -/
theorem trimBoth_eq_self {class? : Char → Bool} {cs : List Char}
    (h : ∀ c ∈ cs, class? c = false) : trimBoth class? cs = cs :=
  trimBoth_of_ends (fun c hc => h c (List.mem_of_head? hc))
    fun c hc => h c (List.mem_of_getLast? hc)

/-! ## The Texts of Fields -/

/-- A number character is no blank. -/
theorem isBlank_of_isNumberChar {c : Char} (h : isNumberChar c = true) : isBlank c = false := by
  simp only [isNumberChar, Bool.or_eq_true, beq_iff_eq] at h
  rcases h with ((((((h | rfl) | rfl) | rfl) | rfl) | rfl) | rfl) | rfl
  · simp only [Char.isDigit, Bool.and_eq_true, decide_eq_true_eq, UInt32.le_iff_toNat_le] at h
    have hlow : 48 ≤ c.toNat := h.1
    have hhigh : c.toNat ≤ 57 := h.2
    simp only [isBlank, Bool.or_eq_false_iff, Bool.and_eq_false_iff, beq_eq_false_iff_ne,
      decide_eq_false_iff_not]
    omega
  all_goals decide

namespace Field

/-- The text of a field consists of number characters. -/
theorem isNumberChar_of_mem_read {f : Field} {p : Profile} {c : Char}
    (hc : c ∈ (f.read p).toList) : isNumberChar c = true := by
  cases f with
  | punchBarNumber =>
    rw [read, String.toList_ofList] at hc
    exact isNumberChar_of_mem_intText hc
  | measure m =>
    rw [read, String.toList_ofList] at hc
    exact isNumberChar_of_mem_text hc

/-- The text of a field holds no blanks. -/
theorem isBlank_of_mem_read {f : Field} {p : Profile} {c : Char} (hc : c ∈ (f.read p).toList) :
    isBlank c = false :=
  isBlank_of_isNumberChar (isNumberChar_of_mem_read hc)

/-- Trimming leaves the text of a field as it is. -/
theorem trimBoth_read (f : Field) (p : Profile) :
    trimBoth isBlank (f.read p).toList = (f.read p).toList :=
  trimBoth_eq_self fun _ hc => isBlank_of_mem_read hc

/-! ## Reading What Is Shown -/

/-- The bar count is read from the text it is shown as. -/
theorem readInteger_read (p : Profile) :
    readInteger (punchBarNumber.read p) = some p.punchBarNumber := by
  rw [readInteger, trimBoth_read, read, String.toList_ofList, readInt32?_intText]

/-- A finite measure is read from the text it is shown as; any other is not. -/
theorem readNumber_read (p : Profile) (m : Measure) :
    readNumber ((measure m).read p) = if (p.real m).isFinite then some (p.real m) else none := by
  rw [readNumber, trimBoth_read, read, String.toList_ofList, Binary64.read?_text,
    Option.filter_some]

end Field

end ChipSettings
