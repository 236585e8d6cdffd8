import Archetype.Decimal.Binary64
import Archetype.Text.Basic

/-!
Data as documents hold them: the values of records and settings before they are understood.
-/

namespace Archetype

open Archetype.Decimal

inductive Datum where
  | null
  | bool (value : Bool)
  | int (value : Int)
  | float (value : Float)
  | text (value : Text)
  | list (items : List Datum)
  /-- Keys with their values in the order of the first mention of each key. -/
  | map (entries : List (Datum × Datum))
deriving Inhabited

namespace Datum

def ofString (s : String) : Datum :=
  .text s

/-- The name of a datum's type in messages. -/
def typeName : Datum → String
  | .null => "NoneType"
  | .bool _ => "bool"
  | .int _ => "int"
  | .float _ => "float"
  | .text _ => "str"
  | .list _ => "list"
  | .map _ => "dict"

/-- Empty data count as absent: null, false, zero, and texts and collections without content. -/
def isEmpty : Datum → Bool
  | .null => true
  | .bool value => !value
  | .int value => value == 0
  | .float value => (Binary64.ofFloat value).isZero
  | .text value => value.isEmpty
  | .list items => items.isEmpty
  | .map entries => entries.isEmpty

/-- The number that a scalar is. Truth values are one and zero. -/
def number? : Datum → Option Binary64
  | .bool value => some (.ofInt (if value then 1 else 0))
  | .int value => some (.ofInt value)
  | .float value => some (.ofFloat value)
  | _ => none

/-- The integer that a scalar equals, if it is a number. -/
def integer? : Datum → Option Int
  | .bool value => some (if value then 1 else 0)
  | .int value => some value
  | .float value => (Binary64.ofFloat value).toInt?
  | _ => none

/-- Two scalars are one key if they are the same number, text or null, and so are two that are no
number. Collections are no keys. -/
def sameKey (a b : Datum) : Bool :=
  match a, b with
  | .null, .null => true
  | .text x, .text y => x == y
  | .float x, .float y => x == y || (x.isNaN && y.isNaN)
  | _, _ =>
    match a.integer?, b.integer? with
    | some x, some y => x == y
    | _, _ => false

/-- Whether a datum can be a key. -/
def isScalar : Datum → Bool
  | .list _ | .map _ => false
  | _ => true

/-- Sets the value of a key; a key that is there already keeps its place and its spelling. -/
def put (entries : List (Datum × Datum)) (key value : Datum) : List (Datum × Datum) :=
  match entries with
  | [] => [(key, value)]
  | (k, v) :: rest => if k.sameKey key then (k, value) :: rest else (k, v) :: put rest key value

/-- The value of a text key. -/
def get? (entries : List (Datum × Datum)) (key : String) : Option Datum :=
  (entries.find? fun (k, _) => k.sameKey (.text key)).map (·.2)

end Datum

end Archetype
