import Archetype.Text.Basic
import Archetype.Text.Visible

/-!
Texts as they stand inside messages: between quotes, with escapes for the quote, the backslash, the
characters that cannot be seen and the halves of characters.
-/

namespace Archetype.Text

/-- A number in lower-case hexadecimal, filled up with zeros to a width. -/
def hexText (width value : Nat) : List Char :=
  let digits := Nat.toDigits 16 value
  List.replicate (width - digits.length) '0' ++ digits

/-- The code of what cannot be seen: two, four or eight digits. -/
def codeEscape (n : Nat) : List Char :=
  if n ≤ 0xFF then '\\' :: 'x' :: hexText 2 n
  else if n ≤ 0xFFFF then '\\' :: 'u' :: hexText 4 n
  else '\\' :: 'U' :: hexText 8 n

/-- One character of a quoted text. -/
def quotedChar (quote c : Char) : List Char :=
  if c = quote ∨ c = '\\' then ['\\', c]
  else if c = '\n' then ['\\', 'n']
  else if c = '\r' then ['\\', 'r']
  else if c = '\t' then ['\\', 't']
  else if isVisible c then [c]
  else codeEscape c.toNat

def quotedPoint (quote : Char) : CodePoint → List Char
  | .char c => quotedChar quote c
  | .half h => codeEscape (CodePoint.half h).code

/-- Single quotes, unless the text holds one and no double quote. -/
def quoteFor (text : Text) : Char :=
  if text.points.contains (.char '\'') && !text.points.contains (.char '"') then '"' else '\''

/-- A text between quotes. -/
def quoted (text : Text) : String :=
  let quote := quoteFor text
  String.ofList (quote :: text.points.flatMap (quotedPoint quote) ++ [quote])

end Archetype.Text
