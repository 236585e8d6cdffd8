import Archetype.Data.Datum
import Archetype.Text.Numeral

/-!
Counts read from data: whole numbers as they are, truth values as one and zero, fractions without
their fractional part, and texts that spell a whole number.
-/

namespace Archetype

open Archetype.Text Archetype.Decimal

namespace Datum

/-- Why a datum is no count. An infinity is told apart from all that is no number. -/
inductive CountFault where
  | invalid
  | infinite
deriving DecidableEq, Repr

def count : Datum → Except CountFault Int
  | .bool value => .ok (if value then 1 else 0)
  | .int value => .ok value
  | .float value =>
    match Binary64.ofFloat value with
    | .nan => .error .invalid
    | .infinite _ => .error .infinite
    | .finite negative mantissa exponent =>
      let magnitude := truncateNat mantissa exponent
      .ok (if negative then -(magnitude : Int) else magnitude)
  | .text value =>
    match value.chars?.bind Text.readInt? with
    | some n => .ok n
    | none => .error .invalid
  | .null | .list _ | .map _ => .error .invalid

end Datum

end Archetype
