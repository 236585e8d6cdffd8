import Archetype.Data.Datum
import Archetype.Decimal.Reading
import Archetype.Text.Search
import Archetype.Yaml.Fault

/-!
What plain scalars of a document stand for: null, truth values, numbers, and texts otherwise. Some
spellings are those of a number that cannot be read; they are faults and no texts.
-/

namespace Archetype.Yaml

open Archetype.Text Archetype.Decimal

def isDecimal (c : Char) : Bool :=
  c.isDigit

/-- Low lines may stand between the digits of a number. -/
def isGrouped (isMember : Char → Bool) (c : Char) : Bool :=
  isMember c || c == '_'

def isOctal (c : Char) : Bool :=
  '0' ≤ c && c ≤ '7'

def isBinary (c : Char) : Bool :=
  c == '0' || c == '1'

def isHex (c : Char) : Bool :=
  c.isDigit || ('a' ≤ c && c ≤ 'f') || ('A' ≤ c && c ≤ 'F')

def hexValue (c : Char) : Nat :=
  if c.isDigit then c.toNat - 0x30 else c.toLower.toNat - 0x57

/-- The number that digits of a base spell; low lines are passed over. -/
def numberOf (base : Nat) (digits : List Char) : Nat :=
  (digits.filter (· != '_')).foldl (fun n c => base * n + hexValue c) 0

def isNonempty (isMember : Char → Bool) (cs : List Char) : Bool :=
  !cs.isEmpty && cs.all isMember

/-- A part of a number of base sixty after a colon: one or two digits below sixty. -/
def sixtieth? (cs : List Char) : Option Nat :=
  match cs with
  | [b] => if isDecimal b then some (hexValue b) else none
  | [a, b] =>
    if '0' ≤ a && a ≤ '5' && isDecimal b then some (10 * hexValue a + hexValue b) else none
  | _ => none

/-- A decimal number, unless too many of its digits are written. -/
def decimalOf (cs : List Char) : Except Fault Nat :=
  let digits := cs.countP (· != '_')
  if digits > maxNumeralDigits then throw (.numberTooLong digits) else return numberOf 10 cs

/-- A number whose places of base sixty are separated by colons. -/
def sexagesimal? (first : List Char) (others : List (List Char)) : Option (Except Fault Nat) :=
  if others.isEmpty then none
  else (others.mapM sixtieth?).map fun places =>
    (decimalOf first).map fun n => places.foldl (60 * · + ·) n

/-- A number that starts neither with a zero nor with a low line. -/
def isLeading (cs : List Char) : Bool :=
  match cs with
  | c :: rest => '1' ≤ c && c ≤ '9' && rest.all (isGrouped isDecimal)
  | [] => false

/-- A number of which at least one digit or low line is written behind the sign of its base. -/
def inBase? (base : Nat) (isMember : Char → Bool) (cs : List Char) : Option (Except Fault Nat) :=
  if !isNonempty (isGrouped isMember) cs then none
  else if cs.all (· == '_') then some (.error (.noDigits base))
  else some (.ok (numberOf base cs))

/-- A whole number without its sign: in base two, eight, ten, sixteen or sixty. -/
def magnitude? (cs : List Char) : Option (Except Fault Nat) :=
  match cs with
  | ['0'] => some (.ok 0)
  | '0' :: 'b' :: rest => inBase? 2 isBinary rest
  | '0' :: 'x' :: rest => inBase? 16 isHex rest
  | '0' :: rest =>
    if isNonempty (isGrouped isOctal) rest then some (.ok (numberOf 8 rest)) else none
  | _ =>
    if isLeading cs then some (decimalOf cs)
    else match divide ':' cs with
      | first :: others => if isLeading first then sexagesimal? first others else none
      | [] => none

def int? (cs : List Char) : Option (Except Fault Int) :=
  let (negative, rest) := signedPart cs
  (magnitude? rest).map (·.map fun n => if negative then -(n : Int) else n)

/-- An exponent has a sign. -/
def exponent? (cs : List Char) : Option Int :=
  match cs with
  | [] => some 0
  | e :: sign :: digits =>
    if (e == 'e' || e == 'E') && isNonempty isDecimal digits then
      if sign = '-' then some (-(numberOf 10 digits : Int))
      else if sign = '+' then some (numberOf 10 digits)
      else none
    else none
  | _ => none

/-- A fraction: digits, a point, digits and perhaps an exponent, with digits on one side. -/
def fraction? (cs : List Char) : Option Float := do
  let (whole, rest) ← cut? ['.'] cs
  let places := rest.takeWhile (isGrouped isDecimal)
  let exponent ← exponent? (rest.dropWhile (isGrouped isDecimal))
  let startsWell := match whole, places with
    | [], c :: _ => isDecimal c
    | c :: more, _ => isDecimal c && more.all (isGrouped isDecimal)
    | [], [] => false
  if startsWell then
    let digits := (places.filter (· != '_')).length
    some (ofDigits (numberOf 10 (whole ++ places)) (exponent - digits))
  else none

/-- The sum of the places of a fraction of base sixty, the last place first. Places and powers are
rounded before they are multiplied, and sums are rounded one by one. -/
def placesSum (sum : Float) (power : Nat) : List Float → Except Fault Float
  | [] => return sum
  | place :: higher =>
    let factor := ofDigits power 0
    if factor.isInf then throw .placeTooLarge
    else placesSum (sum + place * factor) (60 * power) higher

/-- A fraction of base sixty. -/
def sexagesimalFraction? (cs : List Char) : Option (Except Fault Float) := do
  let (whole, places) ← cut? ['.'] cs
  match divide ':' whole with
  | first :: others =>
    let startsWell := match first with
      | c :: more => isDecimal c && more.all (isGrouped isDecimal)
      | [] => false
    if startsWell && !others.isEmpty && places.all (isGrouped isDecimal) then
      let values ← others.mapM sixtieth?
      let digits := places.filter (· != '_')
      let last := ofDigits
        (values.getLast?.getD 0 * Nat.pow 10 digits.length + numberOf 10 digits) (-digits.length)
      let middle := values.dropLast.reverse.map (ofDigits · 0)
      some (placesSum 0.0 1 (last :: (middle ++ [ofDigits (numberOf 10 first) 0])))
    else none
  | [] => none

/-- A number with a point, an infinity or no number. A fraction that starts with its point has no
sign. -/
def float? (cs : List Char) : Option (Except Fault Float) :=
  let (negative, rest) := signedPart cs
  let withSign (x : Float) : Float := if negative then -x else x
  if [".inf", ".Inf", ".INF"].contains (String.ofList rest) then
    some (.ok (withSign infinity))
  else if [".nan", ".NaN", ".NAN"].contains (String.ofList cs) then
    some (.ok notANumber)
  else if rest.head? == some '.' && rest.length != cs.length then
    none
  else
    let found := ((fraction? rest).map .ok).orElse fun _ => sexagesimalFraction? rest
    found.map (·.map withSign)

def isNull (s : String) : Bool :=
  ["", "~", "null", "Null", "NULL"].contains s

def bool? (s : String) : Option Bool :=
  if ["yes", "Yes", "YES", "true", "True", "TRUE", "on", "On", "ON"].contains s then some true
  else if ["no", "No", "NO", "false", "False", "FALSE", "off", "Off", "OFF"].contains s then
    some false
  else none

/-- What a plain scalar stands for. The signs for merging and for a default value stand for
nothing by themselves. -/
def resolve (s : String) : Except Fault Datum :=
  if isNull s then return .null
  else if s = "=" ∨ s = "<<" then throw .malformed
  else match bool? s with
    | some b => return .bool b
    | none =>
      match int? s.toList with
      | some n => n.map .int
      | none =>
        match float? s.toList with
        | some x => x.map .float
        | none => return .text s

end Archetype.Yaml
