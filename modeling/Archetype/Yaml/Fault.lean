import Archetype.Bytes.Basic
import Archetype.Text.Digit

/-!
Why a file holds no document.
-/

namespace Archetype.Yaml

inductive Fault where
  /-- The file is no text. -/
  | text (fault : Bytes.Fault)
  | malformed
  /-- An escape names no character. -/
  | noSuchCharacter
  /-- The number in an escape takes more than thirty-one bits. -/
  | escapeTooLarge
  /-- A decimal number of too many digits. -/
  | numberTooLong (digits : Nat)
  /-- A number of which nothing but its base is written. -/
  | noDigits (base : Nat)
  /-- A fraction of base sixty has a place beyond the greatest power. -/
  | placeTooLarge
deriving DecidableEq, Repr

namespace Fault

/-- The wording for a malformed document is not settled; it is left empty. -/
def message : Fault → String
  | .text fault => fault.message
  | .malformed => ""
  | .noSuchCharacter => "chr() arg not in range(0x110000)"
  | .escapeTooLarge => "Python int too large to convert to C int"
  | .numberTooLong digits => Text.tooLongMessage digits
  | .noDigits base => s!"invalid literal for int() with base {base}: ''"
  | .placeTooLarge => "int too large to convert to float"

/-- Whether a number was too large to be computed with. -/
def isOverflow : Fault → Bool
  | .escapeTooLarge | .placeTooLarge => true
  | _ => false

end Fault

end Archetype.Yaml
