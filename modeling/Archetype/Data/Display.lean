import Archetype.Data.Datum
import Archetype.Decimal.Text
import Archetype.Text.Digit
import Archetype.Text.Quoted

/-!
The text of a datum. A text stands for itself; inside a collection, and in messages, it is quoted.
Numbers of too many digits have no text, and neither has what holds one.
-/

namespace Archetype.Datum

open Archetype.Text Archetype.Decimal

/-- An integer in decimal, unless it has more digits than a number may be typed with. -/
def integerText? (value : Int) : Option String :=
  if value.natAbs < Nat.pow 10 maxNumeralDigits then some (toString value) else none

mutual

/-- A datum as it stands in messages and inside collections. -/
def literal? : Datum → Option String
  | .null => some "None"
  | .bool true => some "True"
  | .bool false => some "False"
  | .int value => integerText? value
  | .float value => some (floatText value)
  | .text value => some (quoted value)
  | .list items => (itemLiterals? items).map fun texts => "[" ++ ", ".intercalate texts ++ "]"
  | .map entries =>
    (entryLiterals? entries).map fun texts => "\x7b" ++ ", ".intercalate texts ++ "\x7d"

def itemLiterals? : List Datum → Option (List String)
  | [] => some []
  | item :: rest => do return (← item.literal?) :: (← itemLiterals? rest)

def entryLiterals? : List (Datum × Datum) → Option (List String)
  | [] => some []
  | (key, value) :: rest => do
    return ((← key.literal?) ++ ": " ++ (← value.literal?)) :: (← entryLiterals? rest)

end

/-- The text that a datum stands for. -/
def display? : Datum → Option Text
  | .text value => some value
  | datum => datum.literal?.map Text.ofString

end Archetype.Datum
