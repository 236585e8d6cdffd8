/-!
Double-precision numbers as exact values.
-/

namespace Archetype.Decimal

/-- What a double-precision number is: no number, an infinity, or `mantissa * 2 ^ exponent` with a
sign. A zero has a sign too. -/
inductive Binary64 where
  | nan
  | infinite (negative : Bool)
  | finite (negative : Bool) (mantissa : Nat) (exponent : Int)
deriving DecidableEq, Repr

/-- The exponent of the least positive number, which all subnormal numbers share. -/
def minExponent : Int := -1074

/-- The mantissa of a power of two among the normal numbers. -/
def hiddenBit : Nat := Nat.pow 2 52

def Binary64.ofBits (bits : Nat) : Binary64 :=
  let negative := bits / Nat.pow 2 63 % 2 == 1
  let biased : Nat := bits / Nat.pow 2 52 % Nat.pow 2 11
  let fraction := bits % Nat.pow 2 52
  if biased = 2047 then
    if fraction = 0 then .infinite negative else .nan
  else if biased = 0 then
    .finite negative fraction minExponent
  else
    .finite negative (hiddenBit + fraction) ((biased : Int) - 1 + minExponent)

def Binary64.ofFloat (x : Float) : Binary64 :=
  .ofBits x.toBits.toNat

/-- Rounds a magnitude toward zero. -/
def truncateNat (mantissa : Nat) (exponent : Int) : Nat :=
  match exponent with
  | .ofNat e => mantissa * Nat.pow 2 e
  | .negSucc e => mantissa / Nat.pow 2 (e + 1)

/-- The exact integer value of a number that is one. -/
def Binary64.toInt? : Binary64 → Option Int
  | .finite negative mantissa exponent =>
    let magnitude := truncateNat mantissa exponent
    let whole := match exponent with
      | .ofNat _ => true
      | .negSucc e => mantissa % Nat.pow 2 (e + 1) == 0
    if whole then some (if negative then -(magnitude : Int) else magnitude) else none
  | _ => none

/-- An integer as a number, however large. -/
def Binary64.ofInt (value : Int) : Binary64 :=
  .finite (value < 0) value.natAbs 0

/-- Whether one number is less than another. What is no number is neither less nor greater. -/
def Binary64.less : Binary64 → Binary64 → Bool
  | .nan, _ | _, .nan => false
  | .infinite a, .infinite b => a && !b
  | .infinite a, .finite .. => a
  | .finite .., .infinite b => !b
  | .finite a m e, .finite b n f =>
    let signed (negative : Bool) (mantissa : Nat) (exponent : Int) : Int :=
      let magnitude : Int := (mantissa * Nat.pow 2 (exponent - min e f).toNat : Nat)
      if negative then -magnitude else magnitude
    signed a m e < signed b n f

def Binary64.isZero : Binary64 → Bool
  | .finite _ mantissa _ => mantissa == 0
  | _ => false

def Binary64.isPositive : Binary64 → Bool
  | .nan => false
  | .infinite negative => !negative
  | .finite negative mantissa _ => !negative && mantissa != 0

end Archetype.Decimal
