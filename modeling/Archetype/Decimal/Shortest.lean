import Archetype.Decimal.Binary64

/-!
The fewest decimal digits that read back as a double-precision number, and of these the nearest to
it. For each count of digits the two neighbours of the number on that decimal grid are tried.
-/

namespace Archetype.Decimal

/-- `digits * 10 ^ exponent`. -/
structure Value where
  digits : Nat
  exponent : Int
deriving DecidableEq, Repr

def pow10 (exponent : Int) : Nat × Nat :=
  match exponent with
  | .ofNat e => (Nat.pow 10 e, 1)
  | .negSucc e => (1, Nat.pow 10 (e + 1))

def decimalLength (n : Nat) : Nat :=
  (Nat.toDigits 10 n).length

/-- The greatest `e` with `10 ^ e ≤ num / den`, for positive numbers. -/
def floorLog10 (num den : Nat) : Int :=
  let guess : Int := (decimalLength num : Int) - decimalLength den
  let (p, q) := pow10 guess
  if p * den ≤ num * q then guess else guess - 1

/-- The numbers that round to `mantissa * 2 ^ exponent`, in quarters of a unit of the last binary
place: the value itself, and the ends of their interval. Below a power of two the lower half is
narrower, since the numbers lie closer there. -/
structure Interval where
  value : Nat
  low : Nat
  high : Nat
  closed : Bool

def Interval.ofMantissa (mantissa : Nat) (exponent : Int) : Interval where
  value := 4 * mantissa
  low := if mantissa = hiddenBit ∧ exponent ≠ minExponent then 4 * mantissa - 1
    else 4 * mantissa - 2
  high := 4 * mantissa + 2
  closed := mantissa % 2 == 0

/-- The neighbour of the value on the grid of `step = stepNum / stepDen` quarters that lies in the
interval, the nearer one if both do; an exact tie goes to the even one. -/
def Interval.nearest? (range : Interval) (stepNum stepDen : Nat) : Option Nat :=
  let below := range.value * stepDen / stepNum
  let above := below + 1
  let hit (n : Nat) : Bool :=
    let scaled := n * stepNum
    if range.closed then range.low * stepDen ≤ scaled && scaled ≤ range.high * stepDen
    else range.low * stepDen < scaled && scaled < range.high * stepDen
  let downward := range.value * stepDen - below * stepNum
  let upward := above * stepNum - range.value * stepDen
  match hit below && below != 0, hit above with
  | true, true =>
    if downward < upward then some below
    else if upward < downward then some above
    else some (if below % 2 = 0 then below else above)
  | true, false => some below
  | false, true => some above
  | false, false => none

/-- The shortest decimal among those with at least `count` digits, tried up to `fuel` counts. -/
def shortestFrom (range : Interval) (unitNum unitDen : Nat) (top : Int) : Nat → Nat → Value
  | 0, _ => ⟨range.value, 0⟩
  | fuel + 1, count =>
    let exponent := top - (count - 1 : Nat)
    let (p, q) := pow10 exponent
    match range.nearest? (p * unitDen) (q * unitNum) with
    | some digits => ⟨digits, exponent⟩
    | none => shortestFrom range unitNum unitDen top fuel (count + 1)

/-- The same number without a zero at its end. A number just below a power of ten may have that
power as its neighbour with one digit more. -/
def Value.withoutZero (number : Value) : Value :=
  if number.digits % 10 = 0 then ⟨number.digits / 10, number.exponent + 1⟩ else number

/-- The shortest decimal of a positive number. Seventeen digits are always enough. -/
def shortest (mantissa : Nat) (exponent : Int) : Value :=
  let (unitNum, unitDen) : Nat × Nat := match exponent - 2 with
    | .ofNat e => (Nat.pow 2 e, 1)
    | .negSucc e => (1, Nat.pow 2 (e + 1))
  let range := Interval.ofMantissa mantissa exponent
  (shortestFrom range unitNum unitDen (floorLog10 (range.value * unitNum) unitDen) 17 1).withoutZero

end Archetype.Decimal
