/-!
Contents of files, and why bytes cannot be read as text.
-/

namespace Archetype

abbrev Bytes := List UInt8

namespace Bytes

/-- Why a run of bytes is no text. -/
inductive Defect where
  | invalidStart
  | invalidContinuation
  | unexpectedEnd
  | notBasic
  | truncated
  | strayLowSurrogate
  | strayHighSurrogate
deriving DecidableEq, Repr

def Defect.reason : Defect → String
  | .invalidStart => "invalid start byte"
  | .invalidContinuation => "invalid continuation byte"
  | .unexpectedEnd => "unexpected end of data"
  | .notBasic => "ordinal not in range(128)"
  | .truncated => "truncated data"
  | .strayLowSurrogate => "illegal encoding"
  | .strayHighSurrogate => "illegal UTF-16 surrogate"

/-- A defect at `start`, `length` bytes long, the first of which is `byte`. -/
structure Fault where
  encoding : String
  defect : Defect
  start : Nat
  length : Nat
  byte : UInt8
deriving DecidableEq, Repr

/-- Two lower-case hexadecimal digits. -/
def hexByte (byte : UInt8) : String :=
  String.ofList [Nat.digitChar (byte.toNat / 16), Nat.digitChar (byte.toNat % 16)]

def Fault.message (fault : Fault) : String :=
  if fault.length = 1 then
    s!"'{fault.encoding}' codec can't decode byte 0x{hexByte fault.byte} in position " ++
      s!"{fault.start}: {fault.defect.reason}"
  else
    s!"'{fault.encoding}' codec can't decode bytes in position " ++
      s!"{fault.start}-{fault.start + fault.length - 1}: {fault.defect.reason}"

end Bytes

end Archetype
