import Archetype.Decimal.Shortest

/-!
How a double-precision number is written: positionally from `10 ^ -4` up to below `10 ^ 16` and
with an exponent of at least two digits elsewhere.
-/

namespace Archetype.Decimal

/-- The decimal exponents of numbers that are written positionally: `low` to below `high`. -/
structure Layout where
  low : Int
  high : Int
  /-- The least number of digits of an exponent. -/
  exponentDigits : Nat

def Layout.standard : Layout := ⟨-4, 16, 2⟩

/-- Digits with a point after the first `whole` of them, filled up with zeros on either side. -/
def positional (digits : List Char) (whole : Int) : List Char :=
  match whole with
  | .ofNat (n + 1) =>
    let front := digits.take (n + 1) ++ List.replicate (n + 1 - digits.length) '0'
    let back := digits.drop (n + 1)
    front ++ '.' :: (if back.isEmpty then ['0'] else back)
  | .ofNat 0 => '0' :: '.' :: digits
  | .negSucc n => '0' :: '.' :: (List.replicate (n + 1) '0' ++ digits)

def exponentText (layout : Layout) (exponent : Int) : List Char :=
  let digits := Nat.toDigits 10 exponent.natAbs
  (if exponent < 0 then '-' else '+') ::
    (List.replicate (layout.exponentDigits - digits.length) '0' ++ digits)

def scientific (layout : Layout) (digits : List Char) (exponent : Int) : List Char :=
  match digits with
  | [] => []
  | [d] => d :: 'e' :: exponentText layout exponent
  | d :: rest => d :: '.' :: (rest ++ 'e' :: exponentText layout exponent)

def Value.write (layout : Layout) (number : Value) : List Char :=
  let digits := Nat.toDigits 10 number.digits
  let exponent := number.exponent + digits.length - 1
  if layout.low ≤ exponent ∧ exponent < layout.high then
    positional digits (exponent + 1)
  else
    scientific layout digits exponent

def Binary64.write : Binary64 → List Char
  | .nan => ['n', 'a', 'n']
  | .infinite negative => (if negative then ['-'] else []) ++ ['i', 'n', 'f']
  | .finite negative mantissa exponent =>
    (if negative then ['-'] else []) ++
      if mantissa = 0 then ['0', '.', '0']
      else (shortest mantissa exponent).write .standard

/-- The text of a double-precision number. -/
def floatText (x : Float) : String :=
  String.ofList (Binary64.ofFloat x).write

end Archetype.Decimal
