namespace RouteDocs
namespace Decimal

/-!
# Finite numbers as integers times powers of two

A finite binary64 value is exactly `mantissa * 2 ^ exponent` with a sign.
Everything that is decided about such a number, whether it is whole, which
integer it is and which decimals read back to it, is decided here on
integers, never by another floating-point operation.
-/

/-- The exact value of a finite binary64 number. -/
structure Binary where
  /-- The sign bit, also of a zero. -/
  negative : Bool
  mantissa : Nat
  exponent : Int
  /-- The gap to the next value towards zero is half the gap away from zero. -/
  narrowBelow : Bool

def Binary.ofFloat (number : Float) : Binary :=
  let bits := number.toBits.toNat
  let biased := bits / Nat.pow 2 52 % Nat.pow 2 11
  let fraction := bits % Nat.pow 2 52
  let negative := decide (Nat.pow 2 63 ≤ bits)
  if biased == 0 then ⟨negative, fraction, -1074, false⟩
  else
    ⟨negative, Nat.pow 2 52 + fraction, Int.ofNat biased - 1075,
      fraction == 0 && decide (1 < biased)⟩

/-- The absolute value, when it is whole. -/
def Binary.wholeAbs? (number : Binary) : Option Nat :=
  if 0 ≤ number.exponent then some (number.mantissa * Nat.pow 2 number.exponent.toNat)
  else
    let unit := Nat.pow 2 (-number.exponent).toNat
    if number.mantissa % unit = 0 then some (number.mantissa / unit) else none

/-- The integer a number is equal to.  Infinities and numbers with a
fractional part are equal to none; both zeros are equal to zero. -/
def whole? (number : Float) : Option Int :=
  if number.isFinite then
    let exact := Binary.ofFloat number
    exact.wholeAbs?.map fun size => if exact.negative then -Int.ofNat size else Int.ofNat size
  else none

/-- The number nearest to a natural number, ties to the even mantissa. -/
def ofNat (size : Nat) : Float :=
  Float.ofScientific size false 0

/-- The number nearest to an integer, ties to the even mantissa. -/
def ofInt (value : Int) : Float :=
  match value with
  | .ofNat size => ofNat size
  | .negSucc size => -ofNat (size + 1)

end Decimal
end RouteDocs
