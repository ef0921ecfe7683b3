import ChipSettings.Text.Blank
import ChipSettings.Xml.Error

/-! # Start Tags

  A start tag is what stands between its angle brackets, without the slash of an
  empty element. Everything else is read off that content:

  - `Tag.name` and `Tag.localName`: what precedes the first blank, and what follows
    the name's first colon.
  - `Tag.attributes`: the attributes up to the first malformed one, and how the list
    ends.
  - `Tag.checkAttributes`: the syntax check, which also refuses repeated keys.
  - `Tag.checkNamespaces`: the check of namespace declarations, which stops at the
    first malformed attribute and overlooks repeated keys.

  All positions are byte offsets from the first byte of the tag's content.
-/

namespace ChipSettings.Xml

open Text

/-- The content of a start tag. -/
structure Tag where
  /-- What stands between the brackets. -/
  content : List Char
deriving DecidableEq

/-- The part of a name after its first colon, or all of it. -/
def localPart (name : List Char) : List Char :=
  match name.dropWhile (· != ':') with
  | [] => name
  | _ :: rest => rest

/-! ## Attributes -/

/-- A well-formed attribute. -/
structure Attribute where
  key : List Char
  value : List Char
  /-- Where the key starts. -/
  position : Nat
deriving DecidableEq

/-- How the list of attributes of a tag ends. -/
inductive AttributesEnd where
  /-- Only blanks are left. -/
  | complete
  /-- A key without its `=`. -/
  | badKey (fault : AttributeFault)
  /-- A key whose value is malformed. -/
  | badValue (key : List Char) (position : Nat) (fault : AttributeFault)
deriving DecidableEq

/-- A key and its `=`, and what follows. -/
structure KeyRead where
  key : List Char
  position : Nat
  /-- Where what follows starts. -/
  next : Nat
  rest : List Char

/-- Read a key and its `=`. The key's first character may be anything, the others
    run up to a blank or `=`. -/
def readKey (total position : Nat) (cs : List Char) : Except AttributeFault (Option KeyRead) :=
  let start := position + byteLength (cs.takeWhile isMarkupSpace)
  match cs.dropWhile isMarkupSpace with
  | [] => .ok none
  | c :: rest =>
    let inKey := fun d => d != '=' && !isMarkupSpace d
    let key := c :: rest.takeWhile inKey
    let afterKey := rest.dropWhile inKey
    let equals := start + byteLength key + byteLength (afterKey.takeWhile isMarkupSpace)
    match afterKey.dropWhile isMarkupSpace with
    | [] => .error (.noEquals total)
    | d :: value =>
      if d == '=' then .ok (some ⟨key, start, equals + 1, value⟩)
      else .error (.noEquals equals)

/-- A value without its quotes, and what follows. -/
structure ValueRead where
  value : List Char
  /-- Where what follows starts. -/
  next : Nat
  rest : List Char

/-- Read a quoted value. -/
def readValue (total position : Nat) (cs : List Char) : Except AttributeFault ValueRead :=
  let start := position + byteLength (cs.takeWhile isMarkupSpace)
  match cs.dropWhile isMarkupSpace with
  | [] => .error (.noValue total)
  | quote :: rest =>
    if quote == '"' || quote == '\'' then
      let value := rest.takeWhile (· != quote)
      match rest.dropWhile (· != quote) with
      | [] => .error (.unclosedQuote total quote)
      | _ :: after => .ok ⟨value, start + byteLength value + 2, after⟩
    else .error (.unquoted start)

theorem length_dropWhile_le {α : Type} (p : α → Bool) (l : List α) :
    (l.dropWhile p).length ≤ l.length :=
  (List.dropWhile_suffix p).length_le

/-- Reading a key consumes something. -/
theorem length_rest_lt_of_readKey {total position : Nat} {cs : List Char} {k : KeyRead}
    (h : readKey total position cs = .ok (some k)) : k.rest.length < cs.length := by
  have hcs := length_dropWhile_le isMarkupSpace cs
  unfold readKey at h
  split at h
  · simp at h
  · next c rest hrest =>
    have hkey := length_dropWhile_le (fun d => d != '=' && !isMarkupSpace d) rest
    have hgap := length_dropWhile_le isMarkupSpace
      (rest.dropWhile fun d => d != '=' && !isMarkupSpace d)
    simp only at h
    split at h
    · simp at h
    · next d value hvalue =>
      split at h
      · simp only [Except.ok.injEq, Option.some.injEq] at h
        subst h
        rw [hvalue] at hgap
        rw [hrest] at hcs
        simp only [List.length_cons] at hcs hgap ⊢
        omega
      · simp at h

/-- Reading a value consumes something. -/
theorem length_rest_lt_of_readValue {total position : Nat} {cs : List Char} {v : ValueRead}
    (h : readValue total position cs = .ok v) : v.rest.length < cs.length := by
  have hcs := length_dropWhile_le isMarkupSpace cs
  unfold readValue at h
  split at h
  · simp at h
  · next quote rest hrest =>
    have hvalue := length_dropWhile_le (· != quote) rest
    simp only at h
    split at h
    · split at h
      · simp at h
      · next after hafter =>
        simp only [Except.ok.injEq] at h
        subst h
        rw [hrest] at hcs
        rw [hafter] at hvalue
        simp only [List.length_cons] at hcs hvalue ⊢
        omega
    · simp at h

/-- The attributes that stand in a text, up to the first malformed one. -/
def readAttributes (total position : Nat) (cs : List Char) : List Attribute × AttributesEnd :=
  match hk : readKey total position cs with
  | .error fault => ([], .badKey fault)
  | .ok none => ([], .complete)
  | .ok (some k) =>
    match hv : readValue total k.next k.rest with
    | .error fault => ([], .badValue k.key k.position fault)
    | .ok v =>
      have : v.rest.length < cs.length :=
        Nat.lt_trans (length_rest_lt_of_readValue hv) (length_rest_lt_of_readKey hk)
      let (attributes, ending) := readAttributes total v.next v.rest
      (⟨k.key, v.value, k.position⟩ :: attributes, ending)
termination_by cs.length

/-! ## Checks -/

/-- Where a key occurred among earlier attributes. -/
def positionOf? (seen : List (List Char × Nat)) (key : List Char) : Option Nat :=
  (seen.find? (·.1 = key)).map (·.2)

/-- Refuse a key that occurred before. -/
def checkNew (seen : List (List Char × Nat)) (key : List Char) (position : Nat) :
    Except AttributeFault Unit :=
  match positionOf? seen key with
  | some previous => .error (.duplicated position previous)
  | none => .ok ()

/-- The first fault of a list of attributes. A repeated key is noticed before the
    value that follows it. -/
def checkSyntax (seen : List (List Char × Nat)) :
    List Attribute → AttributesEnd → Except AttributeFault Unit
  | [], .complete => .ok ()
  | [], .badKey fault => .error fault
  | [], .badValue key position fault => do
    checkNew seen key position
    .error fault
  | a :: rest, ending => do
    checkNew seen a.key a.position
    checkSyntax (seen ++ [(a.key, a.position)]) rest ending

/-- The namespace bound to the prefix `xml`. -/
def xmlNamespace : List Char := "http://www.w3.org/XML/1998/namespace".toList

/-- The namespace bound to the prefix `xmlns`. -/
def xmlnsNamespace : List Char := "http://www.w3.org/2000/xmlns/".toList

/-- The prefix that an attribute with this key binds, if it binds one. -/
def boundPrefix? : (key : List Char) → Option (List Char)
  | 'x' :: 'm' :: 'l' :: 'n' :: 's' :: ':' :: bound => some bound
  | _ => none

/-- Check one attribute as a namespace declaration. -/
def checkBinding (a : Attribute) : Except NamespaceFault Unit :=
  match boundPrefix? a.key with
  | none => .ok ()
  | some bound =>
    if bound = ['x', 'm', 'l'] then
      if a.value = xmlNamespace then .ok () else .error (.xmlPrefix a.value)
    else if bound = ['x', 'm', 'l', 'n', 's'] then .error (.xmlnsPrefix a.value)
    else if a.value = xmlNamespace ∨ a.value = xmlnsNamespace then
      .error (.reservedName bound a.value)
    else .ok ()

namespace Tag

/-- The name: what precedes the first blank. -/
def name (t : Tag) : List Char := t.content.takeWhile (!isMarkupSpace ·)

/-- The name without its prefix. -/
def localName (t : Tag) : List Char := localPart t.name

/-- The attributes up to the first malformed one, and how the list ends. -/
def attributes (t : Tag) : List Attribute × AttributesEnd :=
  readAttributes (byteLength t.content) (byteLength t.name)
    (t.content.dropWhile (!isMarkupSpace ·))

/-- Check the syntax of all attributes. -/
def checkAttributes (t : Tag) : Except XmlError Unit :=
  (checkSyntax [] t.attributes.1 t.attributes.2).mapError .badAttribute

/-- Check the namespace declarations. -/
def checkNamespaces (t : Tag) : Except XmlError Unit :=
  (t.attributes.1.forM checkBinding).mapError .badNamespace

end Tag

end ChipSettings.Xml
