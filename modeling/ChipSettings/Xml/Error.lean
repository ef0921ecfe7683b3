import ChipSettings.Text.Quoted

/-! # Errors of a Markup Document

  Each way in which a document can fail to be read is a constructor of `XmlError`,
  with the texts and byte positions its message shows. `XmlError.message` is the only
  place that words them.
-/

namespace ChipSettings.Xml

open Text

/-- Why the number of a character reference stands for no character. -/
inductive ReferenceFault where
  /-- It starts with a sign. -/
  | signed
  /-- It has no digits. -/
  | empty
  /-- A character is no digit of its base. -/
  | badDigit
  /-- The number needs more than 32 bits. -/
  | tooLarge
  /-- The number is zero. -/
  | null
  /-- The number is no Unicode scalar value. -/
  | notACodePoint (n : Nat)
deriving DecidableEq

/-- What is wrong with an attribute, with byte positions inside the tag. -/
inductive AttributeFault where
  /-- The key is not followed by `=`. -/
  | noEquals (position : Nat)
  /-- The key occurred before in the same tag. -/
  | duplicated (position previous : Nat)
  /-- The tag ends after `=`. -/
  | noValue (position : Nat)
  /-- The value does not start with a quote. -/
  | unquoted (position : Nat)
  /-- The value's quote is not closed. -/
  | unclosedQuote (position : Nat) (quote : Char)
deriving DecidableEq

/-- A namespace declaration that the reserved prefixes and names forbid. -/
inductive NamespaceFault where
  /-- The prefix `xml` is bound to another name. -/
  | xmlPrefix (value : List Char)
  /-- The prefix `xmlns` is bound at all. -/
  | xmlnsPrefix (value : List Char)
  /-- Another prefix is bound to a reserved name. -/
  | reservedName (bound : List Char) (uri : List Char)
deriving DecidableEq

/-- What a value was expected to be. -/
inductive Expected where
  | profile
  | real
  | integer
deriving DecidableEq

/-- Why a document cannot be read as settings. -/
inductive XmlError where
  | unclosedReference
  | unknownMarkup
  | unclosedComment
  | unclosedCData
  | unclosedDoctype
  | unnamedDoctype
  | unclosedInstruction
  | unclosedTag
  /-- An end tag that closes another element than the innermost open one. -/
  | mismatchedEnd (expected found : List Char)
  /-- An end tag where no element is open. -/
  | unmatchedEnd (found : List Char)
  /-- The input ended inside an element. -/
  | unclosedElement (name : List Char)
  /-- The document element is not a settings element. -/
  | wrongRoot (localName : List Char)
  | noRoot
  | unknownEntity (name : List Char)
  | badCharacterReference (fault : ReferenceFault)
  | badNamespace (fault : NamespaceFault)
  /-- A text where something else was expected. -/
  | unexpectedText (text : List Char) (expected : Expected)
  | badAttribute (fault : AttributeFault)
  /-- An element that may occur once occurs again. -/
  | duplicateElement (name : String)
  /-- An element inside an element that holds text only. -/
  | unexpectedElement (name : List Char)
  /-- The text of an element is torn apart by a document type declaration. -/
  | brokenText (name : List Char)
deriving DecidableEq

/-! ## Messages -/

/-- Decimal digits of a position. -/
def digits (n : Nat) : String := String.ofList (Nat.toDigits 10 n)

/-- The wording of a bad character reference. -/
def ReferenceFault.message : ReferenceFault → String
  | signed => "unexpected number sign"
  | empty => "cannot parse integer from empty string"
  | badDigit => "invalid digit found in string"
  | tooLarge => "number too large to fit in target type"
  | null => "0x0 character is not permitted in XML"
  | notACodePoint n => "`" ++ digits n ++ "` is not a valid codepoint"

/-- The wording of a bad attribute, after its position. -/
def AttributeFault.message : AttributeFault → String
  | noEquals p =>
    "position " ++ digits p ++ ": attribute key must be directly followed by `=` or space"
  | duplicated p q =>
    "position " ++ digits p ++ ": duplicated attribute, previous declaration at position " ++ digits q
  | noValue p => "position " ++ digits p ++ ": `=` must be followed by an attribute value"
  | unquoted p =>
    "position " ++ digits p ++ ": attribute value must be enclosed in `\"` or `'`"
  | unclosedQuote p quote =>
    "position " ++ digits p ++ ": missing closing quote `" ++ String.ofList [quote] ++
      "` in attribute value"

/-- The wording of a forbidden namespace declaration. -/
def NamespaceFault.message : NamespaceFault → String
  | xmlPrefix value =>
    "the namespace prefix 'xml' cannot be bound to '" ++ String.ofList (bytesQuoted value) ++ "'"
  | xmlnsPrefix value =>
    "the namespace prefix 'xmlns' cannot be bound to '" ++ String.ofList (bytesQuoted value) ++ "'"
  | reservedName bound uri =>
    "the namespace prefix '" ++ String.ofList (bytesQuoted bound) ++ "' cannot be bound to '" ++
      String.ofList uri ++ "'"

/-- The wording of what was expected. -/
def Expected.description : Expected → String
  | profile => "struct ConfigurationProfile"
  | real => "f64"
  | integer => "i32"

namespace XmlError

/-- The wording of an error. -/
def message : XmlError → String
  | unclosedReference =>
    "ill-formed document: entity or character reference not closed: `;` not found before end of input"
  | unknownMarkup => "syntax error: unknown or missed symbol in markup"
  | unclosedComment => "syntax error: comment not closed: `-->` not found before end of input"
  | unclosedCData => "syntax error: CDATA not closed: `]]>` not found before end of input"
  | unclosedDoctype => "syntax error: DOCTYPE not closed: `>` not found before end of input"
  | unnamedDoctype =>
    "ill-formed document: `<!DOCTYPE>` declaration does not contain a name of a document type"
  | unclosedInstruction =>
    "syntax error: processing instruction or xml declaration not closed: `?>` not found before end of input"
  | unclosedTag => "syntax error: tag not closed: `>` not found before end of input"
  | mismatchedEnd expected found =>
    "ill-formed document: expected `</" ++ String.ofList expected ++ ">`, but `</" ++
      String.ofList found ++ ">` was found"
  | unmatchedEnd found =>
    "ill-formed document: close tag `</" ++ String.ofList found ++ ">` does not match any open tag"
  | unclosedElement name =>
    "ill-formed document: start tag not closed: `</" ++ String.ofList name ++
      ">` not found before end of input"
  | wrongRoot localName =>
    "expected <Settings> root element, found <" ++ String.ofList localName ++ ">"
  | noRoot => "document has no root element"
  | unknownEntity name =>
    "at 0.." ++ digits (byteLength name) ++ ": unrecognized entity `" ++ String.ofList name ++ "`"
  | badCharacterReference fault => "invalid character reference: " ++ fault.message
  | badNamespace fault => fault.message
  | unexpectedText text expected =>
    "invalid type: string " ++ String.ofList (quoted text) ++ ", expected " ++ expected.description
  | badAttribute fault => "error while parsing attribute: " ++ fault.message
  | duplicateElement name => "duplicate field `" ++ name ++ "`"
  | unexpectedElement name =>
    "unexpected `Event::Start(" ++ String.ofList (bytesQuoted name) ++ ")`"
  | brokenText name =>
    "text of element `" ++ String.ofList name ++ "` is interrupted by a document type declaration"

end XmlError

end ChipSettings.Xml
