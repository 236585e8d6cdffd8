import Archetype.Text.Search
import Archetype.Yaml.Scalar

/-!
Points in time as documents spell them. They are texts here, but other readers take them for more,
so a text of this form is not written plain.
-/

namespace Archetype.Yaml

open Archetype.Text

/-- What follows a run of digits that is as long as it must be. -/
def afterDigits? (least most : Nat) (cs : List Char) : Option (List Char) :=
  let length := (cs.takeWhile isDecimal).length
  if least ≤ length ∧ length ≤ most then some (cs.drop length) else none

def isSpaceOrTab (c : Char) : Bool :=
  c == ' ' || c == '\t'

/-- What follows a year, a month and a day. The last two may be written with one digit if `least`
is one. -/
def afterDate? (least : Nat) (cs : List Char) : Option (List Char) := do
  let rest ← afterDigits? least 2 (← after? ['-'] (← afterDigits? 4 4 cs))
  afterDigits? least 2 (← after? ['-'] rest)

/-- What follows hours, minutes, seconds and perhaps a fraction of a second. -/
def afterTime? (cs : List Char) : Option (List Char) := do
  let rest ← afterDigits? 2 2 (← after? [':'] (← afterDigits? 1 2 cs))
  let rest ← afterDigits? 2 2 (← after? [':'] rest)
  match rest with
  | '.' :: places => return places.dropWhile isDecimal
  | rest => return rest

/-- A distance from the zero meridian: hours with a sign, and perhaps minutes. -/
def isZoneDistance (cs : List Char) : Bool :=
  match afterDigits? 1 2 cs with
  | some [] => true
  | some (':' :: minutes) => afterDigits? 2 2 minutes == some []
  | _ => false

/-- A time zone, which may be left out. -/
def isZone (cs : List Char) : Bool :=
  match cs, cs.dropWhile isSpaceOrTab with
  | [], _ => true
  | _, ['Z'] => true
  | _, sign :: distance => (sign == '+' || sign == '-') && isZoneDistance distance
  | _, [] => false

/-- What follows the mark between a date and a time: a letter, or spaces and tabs. -/
def afterTimeMark? (cs : List Char) : Option (List Char) :=
  match cs with
  | 'T' :: rest | 't' :: rest => some rest
  | c :: rest => if isSpaceOrTab c then some (rest.dropWhile isSpaceOrTab) else none
  | [] => none

/-- A date, or a date with a time and perhaps a time zone. -/
def isTimestamp (cs : List Char) : Bool :=
  afterDate? 2 cs == some [] ||
    (((afterDate? 1 cs).bind afterTimeMark?).bind afterTime?).any isZone

end Archetype.Yaml
