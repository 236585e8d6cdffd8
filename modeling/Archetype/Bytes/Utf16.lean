import Archetype.Bytes.Basic

/-!
Text in UTF-16, in either order of the bytes of a unit. A mark in front of the text can tell the
order.
-/

namespace Archetype.Bytes.Utf16

/-- Which byte of a unit comes first. -/
inductive Order where
  | little | big
deriving DecidableEq, Repr

def Order.encodingName : Order → String
  | .little => "utf-16-le"
  | .big => "utf-16-be"

def Order.unit (order : Order) (first second : UInt8) : Nat :=
  match order with
  | .little => first.toNat + 256 * second.toNat
  | .big => 256 * first.toNat + second.toNat

def isHigh (unit : Nat) : Bool :=
  0xD800 ≤ unit && unit < 0xDC00

def isLow (unit : Nat) : Bool :=
  0xDC00 ≤ unit && unit < 0xE000

def pairValue (high low : Nat) : Nat :=
  0x10000 + (high - 0xD800) * 0x400 + (low - 0xDC00)

/-- Decodes bytes from a position on. -/
def decodeFrom (order : Order) (position : Nat) : Bytes → Except Fault (List Char)
  | [] => .ok []
  | [byte] => .error ⟨order.encodingName, .truncated, position, 1, byte⟩
  | a :: b :: rest =>
    let unit := order.unit a b
    let fault (defect : Defect) (length : Nat) : Except Fault (List Char) :=
      .error ⟨order.encodingName, defect, position, length, a⟩
    if isLow unit then
      fault .strayLowSurrogate 2
    else if isHigh unit then
      match rest with
      | c :: d :: rest =>
        let next := order.unit c d
        if isLow next then
          (decodeFrom order (position + 4) rest).map (Char.ofNat (pairValue unit next) :: ·)
        else
          fault .strayHighSurrogate 2
      | short => fault .unexpectedEnd (2 + short.length)
    else
      (decodeFrom order (position + 2) rest).map (Char.ofNat unit :: ·)

/-- The order that the mark in front of a text tells. -/
def orderMark? : Bytes → Option Order
  | 0xFF :: 0xFE :: _ => some .little
  | 0xFE :: 0xFF :: _ => some .big
  | _ => none

end Archetype.Bytes.Utf16
