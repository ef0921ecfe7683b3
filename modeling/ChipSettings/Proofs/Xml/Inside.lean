import ChipSettings.Proofs.Outcome
import ChipSettings.Proofs.Xml.Prefix

/-! # Readers Close What They Read

  Whoever reads or skips an element of a document reads on to its end. So nothing of the
  kind succeeds on events that stay inside the element.

  - `Closes`: from events inside an element to events behind it.
  - `closes_readText`, `closes_skip` and their companions: each reader of an element
    closes it, whatever it reads.
-/

namespace ChipSettings.Xml

/-- What an event that is delivered opens and closes. -/
def Item.brackets : Item → List Bracket
  | .text _ => []
  | .start _ => [.opens]
  | .finish => [.closes]

/-- Going from some events to later ones closes the innermost open element. -/
def Closes (es rest : List Event) : Prop :=
  ∀ depth, StaysInside depth (eventBrackets es) →
    0 < depth ∧ StaysInside (depth - 1) (eventBrackets rest)

/-- Nothing closes an element that events stay inside. -/
theorem Closes.not_staysInside {es rest : List Event} (h : Closes es rest) :
    ¬ StaysInside 0 (eventBrackets es) := fun hinside => Nat.lt_irrefl 0 (h 0 hinside).1

variable {ending : Ending} {name content : List Char} {es rest : List Event}

/-- The event that is delivered is the first that opens or closes anything. -/
theorem eventBrackets_deliver {item : Item} (h : deliver ending name es = .ok (item, rest)) :
    eventBrackets es = item.brackets ++ eventBrackets rest := by
  induction es with
  | nil => cases h
  | cons e es ih =>
    cases e with
    | doctype => exact ih h
    | finish => cases h; rfl
    | text content =>
      cases content with
      | error e => cases h
      | ok c => cases h; rfl
    | start tag =>
      obtain ⟨u, -, h⟩ := exists_of_bind_eq_ok h
      cases h
      rfl

/-- The end of an element closes it. -/
theorem closes_of_finish (h : deliver ending name es = .ok (.finish, rest)) : Closes es rest := by
  intro depth hinside
  rw [eventBrackets_deliver h] at hinside
  exact hinside

/-- A text in front does not matter. -/
theorem closes_of_text {rest' : List Event} (h : deliver ending name es = .ok (.text content, rest))
    (hrest : Closes rest rest') : Closes es rest' := by
  intro depth hinside
  rw [eventBrackets_deliver h] at hinside
  exact hrest depth hinside

/-- An element in front that is closed does not matter. -/
theorem closes_of_start {tag : Tag} {rest' rest'' : List Event}
    (h : deliver ending name es = .ok (.start tag, rest)) (hchild : Closes rest rest')
    (hrest : Closes rest' rest'') : Closes es rest'' := by
  intro depth hinside
  rw [eventBrackets_deliver h] at hinside
  exact hrest depth (hchild (depth + 1) hinside).2

theorem closes_skipRest {inner : Nat} (h : skipRest ending name inner es = .ok rest) :
    ∀ depth, StaysInside depth (eventBrackets es) →
      inner < depth ∧ StaysInside (depth - (inner + 1)) (eventBrackets rest) := by
  -- the elements open inside the one that is skipped are closed before it
  induction es generalizing inner with
  | nil => cases h
  | cons e es ih =>
    intro depth hinside
    cases e with
    | text content => exact ih h depth hinside
    | doctype => exact ih h depth hinside
    | start tag =>
      have hskip : skipRest ending name (inner + 1) es = .ok rest := h
      obtain ⟨hlt, hafter⟩ := ih hskip (depth + 1) hinside
      exact ⟨by omega, by rwa [show depth + 1 - (inner + 1 + 1) = depth - (inner + 1) by omega]
        at hafter⟩
    | finish =>
      obtain ⟨hpos, hinside⟩ : 0 < depth ∧ StaysInside (depth - 1) (eventBrackets es) := hinside
      cases inner with
      | zero => cases h; exact ⟨hpos, hinside⟩
      | succ inner =>
        obtain ⟨hlt, hafter⟩ := ih h (depth - 1) hinside
        exact ⟨by omega, by rwa [show depth - 1 - (inner + 1) = depth - (inner + 1 + 1) by omega]
          at hafter⟩

theorem closes_leave (h : leave ending name es = .ok rest) : Closes es rest := by
  have key : skipRest ending name 0 es = .ok rest := by
    unfold leave at h
    split at h
    · obtain ⟨u, -, h⟩ := exists_of_bind_eq_ok h
      exact h
    · exact h
  exact closes_skipRest key

/-- Skipping an element closes it. -/
theorem closes_skip (h : skip ending name es = .ok rest) : Closes es rest := by
  obtain ⟨⟨item, es'⟩, ht, h⟩ := exists_of_bind_eq_ok h
  cases item with
  | finish => cases h; exact closes_of_finish ht
  | text content => exact closes_of_text ht (closes_leave h)
  | start tag =>
    -- the first child is passed over, and then what is left of the element
    obtain ⟨es'', hl, h⟩ := exists_of_bind_eq_ok h
    exact closes_of_start ht (closes_leave hl) (closes_leave h)

/-- Reading the text of an element closes it. -/
theorem closes_readText (h : readText ending name es = .ok (content, rest)) : Closes es rest := by
  obtain ⟨⟨item, es'⟩, ht, h⟩ := exists_of_bind_eq_ok h
  cases item with
  | finish => cases h; exact closes_of_finish ht
  | start tag => cases h
  | text content =>
    obtain ⟨⟨item', es''⟩, ht', h⟩ := exists_of_bind_eq_ok h
    cases item' with
    | finish => cases h; exact closes_of_text ht (closes_of_finish ht')
    | start tag => cases h
    | text content => cases h

end ChipSettings.Xml
