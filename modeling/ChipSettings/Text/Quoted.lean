import ChipSettings.Text.Hidden

/-! # Quoted Texts in Messages

  Error messages show pieces of a document in two spellings:

  - `quoted`: a text in double quotes, where quotes, backslashes, line breaks and
    hidden characters are escaped, so that the text can be read off the message.
  - `bytesQuoted`: a name in double quotes, byte by byte, where every byte that is
    not plain ASCII is spelled in hexadecimal.
-/

namespace ChipSettings.Text

/-! ## Texts -/

/-- A character spelled by its number: `\u`, then the hexadecimal digits in braces. -/
def byNumber (c : Char) : List Char :=
  '\\' :: 'u' :: '\x7b' :: (Nat.toDigits 16 c.toNat ++ ['\x7d'])

/-- One character of a quoted text. -/
def quotedChar (c : Char) : List Char :=
  if c == '"' || c == '\\' then ['\\', c]
  else if c == '\n' then ['\\', 'n']
  else if c == '\r' then ['\\', 'r']
  else if c == '\t' then ['\\', 't']
  else if c == '\x00' then ['\\', '0']
  else if isHidden c then byNumber c
  else [c]

/-- A text in double quotes, escaped so that the message shows all of it. -/
def quoted (cs : List Char) : List Char :=
  '"' :: (cs.flatMap quotedChar ++ ['"'])

/-! ## Names as Bytes -/

/-- One byte of a quoted name: plain ASCII as itself, anything else as `0x` and
    its hexadecimal digits without padding. -/
def quotedByte (b : UInt8) : List Char :=
  if b == 0x22 then ['\\', '"']
  else if 32 ≤ b && b ≤ 126 then [Char.ofNat b.toNat]
  else '0' :: 'x' :: (Nat.toDigits 16 b.toNat).map Char.toUpper

/-- A name in double quotes, shown byte by byte in UTF-8. -/
def bytesQuoted (cs : List Char) : List Char :=
  '"' :: (cs.flatMap (fun c => (String.utf8EncodeChar c).flatMap quotedByte) ++ ['"'])

/-- Length of a text in UTF-8 bytes, the unit of every position in a message. -/
def byteLength : List Char → Nat
  | [] => 0
  | c :: cs => c.utf8Size + byteLength cs

@[simp] theorem byteLength_nil : byteLength [] = 0 := rfl

@[simp] theorem byteLength_cons (c : Char) (cs : List Char) :
    byteLength (c :: cs) = c.utf8Size + byteLength cs := rfl

@[simp] theorem byteLength_append (as bs : List Char) :
    byteLength (as ++ bs) = byteLength as + byteLength bs := by
  induction as with
  | nil => simp
  | cons c as ih => simp [ih, Nat.add_assoc]

end ChipSettings.Text
