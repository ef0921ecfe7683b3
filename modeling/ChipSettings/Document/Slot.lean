import ChipSettings.Field

/-! # Slots of a Settings Document

  A settings document has one element per part of a profile: one for each layer list
  and one for each numeric field. A `Slot` is such an element, known by its name.
-/

namespace ChipSettings.Document

/-- An element that a settings document may hold once. -/
inductive Slot where
  | layers (kind : LayerKind)
  | number (field : Field)
deriving DecidableEq

namespace Slot

/-- All slots, in document order. -/
def all : List Slot := LayerKind.all.map layers ++ Field.all.map number

/-- Name of the slot's element. -/
def name : Slot → String
  | layers kind => kind.elementName
  | number field => field.name

/-- The slot with a given element name. -/
def ofName? (name : List Char) : Option Slot :=
  all.find? fun slot => slot.name.toList = name

end Slot

/-- Name of the document element. -/
def rootName : String := "Settings"

/-- Name of the elements that hold the names of a layer list. -/
def itemName : String := "string"

end ChipSettings.Document
