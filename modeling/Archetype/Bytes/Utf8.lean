import Archetype.Bytes.Basic

/-!
Text in UTF-8. A character is a first byte and up to three continuation bytes; the first byte also
narrows the range of the first continuation byte, so that no character has two spellings and no
surrogate is spelled.
-/

namespace Archetype.Bytes.Utf8

/-- What a first byte says: the leading bits of the character, how many continuation bytes follow,
and the range of the first of them. -/
structure Lead where
  bits : Nat
  more : Nat
  low : Nat
  high : Nat
deriving DecidableEq, Repr

def lead? (byte : Nat) : Option Lead :=
  if byte < 0x80 then some ⟨byte, 0, 0x80, 0xBF⟩
  else if byte < 0xC2 then none
  else if byte < 0xE0 then some ⟨byte - 0xC0, 1, 0x80, 0xBF⟩
  else if byte = 0xE0 then some ⟨0, 2, 0xA0, 0xBF⟩
  else if byte = 0xED then some ⟨0xD, 2, 0x80, 0x9F⟩
  else if byte < 0xF0 then some ⟨byte - 0xE0, 2, 0x80, 0xBF⟩
  else if byte = 0xF0 then some ⟨0, 3, 0x90, 0xBF⟩
  else if byte < 0xF4 then some ⟨byte - 0xF0, 3, 0x80, 0xBF⟩
  else if byte = 0xF4 then some ⟨4, 3, 0x80, 0x8F⟩
  else none

/-- The value of a character after `seen` of its bytes, or the defect and how many bytes it
spans. -/
def complete (value seen : Nat) : (more low high : Nat) → Bytes → Except (Defect × Nat) Nat
  | 0, _, _, _ => .ok value
  | _ + 1, _, _, [] => .error (.unexpectedEnd, seen)
  | more + 1, low, high, byte :: rest =>
    let b := byte.toNat
    if low ≤ b ∧ b ≤ high then
      complete (64 * value + (b - 0x80)) (seen + 1) more 0x80 0xBF rest
    else
      .error (.invalidContinuation, seen)

/-- The character at the front of a text, and how many bytes it has after the first. -/
def front (byte : UInt8) (rest : Bytes) : Except (Defect × Nat) (Char × Nat) :=
  match lead? byte.toNat with
  | none => .error (.invalidStart, 1)
  | some lead =>
    (complete lead.bits 1 lead.more lead.low lead.high rest).map (Char.ofNat ·, lead.more)

/-- Decodes bytes from a position on, passing over the first `skip` of them. -/
def decodeFrom : Bytes → (position skip : Nat) → Except Fault (List Char)
  | [], _, _ => .ok []
  | _ :: rest, position, skip + 1 => decodeFrom rest (position + 1) skip
  | byte :: rest, position, 0 =>
    match front byte rest with
    | .error (defect, length) => .error ⟨"utf-8", defect, position, length, byte⟩
    | .ok (c, more) => (decodeFrom rest (position + 1) more).map (c :: ·)

def decode (bytes : Bytes) : Except Fault (List Char) :=
  decodeFrom bytes 0 0

/-- The bytes of a character. -/
def encodeChar (c : Char) : Bytes :=
  let n := c.toNat
  let tail (n : Nat) : UInt8 := .ofNat (0x80 + n % 64)
  if n < 0x80 then [.ofNat n]
  else if n < 0x800 then [.ofNat (0xC0 + n / 64), tail n]
  else if n < 0x10000 then [.ofNat (0xE0 + n / 4096), tail (n / 64), tail n]
  else [.ofNat (0xF0 + n / 262144), tail (n / 4096), tail (n / 64), tail n]

def encode (text : List Char) : Bytes :=
  text.flatMap encodeChar

/-- Two bytes that begin the spelling of a surrogate. Whether they are faulty is decided when the
third is there. -/
def isCutSurrogate : Bytes → Bool
  | [0xED, byte] => 0xA0 ≤ byte.toNat && byte.toNat ≤ 0xBF
  | _ => false

/-- Decodes bytes that others follow: the text of the whole characters, and the bytes of a last one
that is cut off. -/
def decodePart (bytes : Bytes) : Except Fault (List Char × Bytes) :=
  match decode bytes with
  | .ok text => .ok (text, [])
  | .error fault =>
    let unread := bytes.drop fault.start
    if fault.defect = .unexpectedEnd ∨ isCutSurrogate unread then
      (decode (bytes.take fault.start)).map fun text => (text, unread)
    else
      .error fault

end Archetype.Bytes.Utf8
