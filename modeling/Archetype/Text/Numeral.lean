import Archetype.Text.Blank
import Archetype.Text.Digit

/-!
Numbers as they are typed: digits of any script, in groups divided by single low lines, with a sign
in front and blanks around them.
-/

namespace Archetype.Text

/-- Digits of any script with single low lines between them. -/
def groupedDigits? : List Char → Option (List Char)
  | [] => none
  | [c] => if isDigit c then some [c] else none
  | c :: '_' :: rest => if isDigit c then (groupedDigits? rest).map (c :: ·) else none
  | c :: rest => if isDigit c then (groupedDigits? rest).map (c :: ·) else none

/-- Blanks around a number are no part of it. The information separators are not among them. -/
def isNumberPadding (c : Char) : Bool :=
  isBlank c && !(0x1C ≤ c.toNat && c.toNat ≤ 0x1F)

def stripNumberPadding (text : List Char) : List Char :=
  ((text.dropWhile isNumberPadding).reverse.dropWhile isNumberPadding).reverse

/-- Whether a number has a minus in front, and what follows its sign. -/
def signedPart (text : List Char) : Bool × List Char :=
  match text with
  | '-' :: rest => (true, rest)
  | '+' :: rest => (false, rest)
  | _ => (false, text)

/-- The whole number that a text spells: a sign or none, then grouped digits, not too many. -/
def readInt? (text : List Char) : Option Int := do
  let (negative, body) := signedPart (stripNumberPadding text)
  let digits ← groupedDigits? body
  if digits.length > maxNumeralDigits then
    none
  else
    let value := numeralValue digits
    some (if negative then -(value : Int) else value)

end Archetype.Text
