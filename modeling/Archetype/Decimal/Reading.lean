import Archetype.Decimal.Shortest
import Archetype.Text.Numeral

/-!
Double-precision numbers read from decimal digits.
-/

namespace Archetype.Decimal

open Archetype.Text

def infinity : Float := 1.0 / 0.0

def notANumber : Float := 0.0 / 0.0

/-- Numbers from this power of ten on are infinite, and those below its inverse are zero. -/
def extreme : Int := 400

/-- The number nearest to `digits * 10 ^ exponent`. -/
def ofDigits (digits : Nat) (exponent : Int) : Float :=
  let top := exponent + decimalLength digits
  if digits = 0 ∨ top < -extreme then 0.0
  else if top > extreme then infinity
  else Float.ofScientific digits (exponent < 0) exponent.natAbs

/-- Grouped digits, of which there may be none. -/
def digitsOrNone? (text : List Char) : Option (List Char) :=
  if text.isEmpty then some [] else groupedDigits? text

/-- The parts of a number before and after its exponent letter. -/
def exponentPart? (text : List Char) : Option (List Char × Int) :=
  let isLetter (c : Char) : Bool := c == 'e' || c == 'E'
  let front := text.takeWhile (!isLetter ·)
  match text.dropWhile (!isLetter ·) with
  | [] => some (front, 0)
  | _ :: rest => do
    let (negative, digits) := signedPart rest
    let value := numeralValue (← groupedDigits? digits)
    return (front, if negative then -(value : Int) else value)

/-- A number without its sign: digits with a point among them or around them, and perhaps an
exponent. -/
def magnitude? (text : List Char) : Option Float := do
  let (front, exponent) ← exponentPart? text
  let whole ← digitsOrNone? (front.takeWhile (· != '.'))
  let places ← digitsOrNone? ((front.dropWhile (· != '.')).drop 1)
  if whole.isEmpty && places.isEmpty then
    none
  else
    some (ofDigits (numeralValue (whole ++ places)) (exponent - places.length))

/-- The number that a text spells, which may be an infinity or no number by name. -/
def readFloat? (text : List Char) : Option Float :=
  let (negative, body) := signedPart (stripNumberPadding text)
  let magnitude := match String.ofList (body.map Char.toLower) with
    | "inf" | "infinity" => some infinity
    | "nan" => some notANumber
    | _ => magnitude? body
  magnitude.map fun x => if negative then -x else x

end Archetype.Decimal
