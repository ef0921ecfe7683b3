import ChipSettings.Text.Blank

/-! # Checklists of Layers

  The layers of a kind are edited as a list of names, each checked or not, and a text
  box for the name of one more layer.

  - Names are only ever appended; a name may occur twice.
  - `Checklist.checkedNames` are the names that a profile gets.
-/

namespace ChipSettings

open Text

/-- A layer in the list. -/
structure LayerItem where
  name : String
  checked : Bool
deriving DecidableEq, Inhabited

/-- The editable list of layers of one kind. -/
structure Checklist where
  /-- The listed layers. -/
  items : List LayerItem
  /-- The text in the box for a new layer. -/
  pending : String
deriving DecidableEq, Inhabited

namespace Checklist

/-- A list of layers, all checked, with an empty box. -/
def ofNames (names : List String) : Checklist := ⟨names.map (⟨·, true⟩), ""⟩

/-- Names of the checked layers, in list order. -/
def checkedNames (c : Checklist) : List String :=
  (c.items.filter (·.checked)).map (·.name)

/-- The name in the box, without the blanks around it. -/
def pendingName (c : Checklist) : String := trim c.pending

/-- Replace the text in the box. -/
def setPending (c : Checklist) (text : String) : Checklist := { c with pending := text }

/-- Append the name in the box as a checked layer and empty the box; `none` if the box
    holds only blanks. -/
def addPending? (c : Checklist) : Option Checklist :=
  if c.pendingName.isEmpty then none
  else some ⟨c.items ++ [⟨c.pendingName, true⟩], ""⟩

/-- Check or uncheck the layer at a position; positions outside the list change nothing. -/
def setChecked (c : Checklist) (index : Nat) (checked : Bool) : Checklist :=
  { c with items := c.items.modify index fun item => { item with checked := checked } }

@[simp] theorem checkedNames_ofNames (names : List String) :
    (ofNames names).checkedNames = names := by
  simp [ofNames, checkedNames, List.filter_map, Function.comp_def]

end Checklist

end ChipSettings
