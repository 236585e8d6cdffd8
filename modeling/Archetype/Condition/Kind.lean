/-!
The kinds of values that a condition computes with.
-/

namespace Archetype.Condition

inductive Kind where
  | bool | int | text | bag | null
deriving DecidableEq, Repr

/-- The name of a kind in messages. -/
def Kind.name : Kind → String
  | .bool => "bool"
  | .int => "int"
  | .text => "str"
  | .bag => "set"
  | .null => "null"

end Archetype.Condition
