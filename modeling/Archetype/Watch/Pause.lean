import Archetype.Data.Datum

/-!
How long a pause lasts.
-/

namespace Archetype.Watch

/-- The pause of so many seconds, in milliseconds. Only numbers that are not negative are pauses. -/
def pauseMilliseconds? : Datum → Option Nat
  | .bool value => some (if value then 1000 else 0)
  | .int value => if value < 0 then none else some (1000 * value.toNat)
  | .float value => if value ≥ 0 then some (value * 1000).toUInt64.toNat else none
  | _ => none

end Archetype.Watch
