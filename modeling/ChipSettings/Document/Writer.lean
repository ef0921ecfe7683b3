import ChipSettings.Document.Slot
import ChipSettings.Validation

/-! # Writing a Settings Document

  The document is a declaration and one element per line, indented by two spaces per
  level, with the slots in document order.

  - An element without content is written as an empty element.
  - In text only the three characters that markup needs are escaped; everything else,
    line breaks and control characters included, is written as it is.
-/

namespace ChipSettings.Document

/-! ## Elements -/

/-- The three characters that cannot stand in text, by their entities. -/
def escapeChar (c : Char) : List Char :=
  if c == '&' then "&amp;".toList
  else if c == '<' then "&lt;".toList
  else if c == '>' then "&gt;".toList
  else [c]

/-- A text as it stands in a document. -/
def escape (cs : List Char) : List Char := cs.flatMap escapeChar

/-- Two spaces per level. -/
def indent (depth : Nat) : List Char := List.replicate (2 * depth) ' '

/-- A start tag. -/
def openTag (name : String) : List Char := '<' :: (name.toList ++ ['>'])

/-- An end tag. -/
def closeTag (name : String) : List Char := '<' :: '/' :: (name.toList ++ ['>'])

/-- An empty element. -/
def emptyTag (name : String) : List Char := '<' :: (name.toList ++ ['/', '>'])

/-- A line with an element that holds a text. -/
def textElement (depth : Nat) (name : String) (content : List Char) : List Char :=
  indent depth ++
    (if content.isEmpty then emptyTag name
     else openTag name ++ escape content ++ closeTag name) ++ ['\n']

/-! ## Slots -/

/-- The lines of a layer list. -/
def layersElement (kind : LayerKind) (names : List String) : List Char :=
  if names.isEmpty then indent 1 ++ emptyTag kind.elementName ++ ['\n']
  else
    indent 1 ++ openTag kind.elementName ++ ['\n'] ++
      names.flatMap (fun name => textElement 2 itemName name.toList) ++
      indent 1 ++ closeTag kind.elementName ++ ['\n']

/-- The lines of a slot. -/
def slotElement (p : Profile) : Slot → List Char
  | .layers kind => layersElement kind (p.layers kind)
  | .number field => textElement 1 field.name (field.read p).toList

/-! ## The Document -/

/-- The declaration every document starts with. -/
def declaration : String := "<?xml version=\"1.0\" encoding=\"utf-8\"?>"

/-- Write a profile as a document. -/
def write (p : Profile) : List Char :=
  declaration.toList ++ ['\n'] ++ openTag rootName ++ ['\n'] ++
    Slot.all.flatMap (slotElement p) ++ closeTag rootName ++ ['\n']

end ChipSettings.Document
