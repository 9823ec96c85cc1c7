import RouteDocs.Decimal.Binary

namespace RouteDocs
namespace Decimal

/-!
# The fewest digits that read back

A finite number stands for an interval of reals: all those that round to it.
Its written form is the shortest decimal inside that interval, the nearest of
them when several have the same length, the even one when two are equally
near.  The search runs over the number of digits, in exact arithmetic.

How the digits are laid out is the second half: `numberLayout` holds the
decisions, `layOut` follows them.
-/

/-- A positive decimal, `digits * 10 ^ exponent`. -/
structure Digits where
  digits : Nat
  exponent : Int

/-- Compare `left * 10 ^ tens` with `right * 2 ^ twos`, exactly. -/
def compareScaled (left : Nat) (tens : Int) (right : Nat) (twos : Int) : Ordering :=
  compare (left * Nat.pow 10 tens.toNat * Nat.pow 2 (-twos).toNat)
    (right * Nat.pow 2 twos.toNat * Nat.pow 10 (-tens).toNat)

/-- Whether a decimal lies among the reals that round to the number.  The ends
of that interval lie halfway to the two neighbours and belong to it exactly
when the mantissa is even. -/
def Binary.readsBack (number : Binary) (decimal : Digits) : Bool :=
  let low := if number.narrowBelow then 4 * number.mantissa - 1 else 4 * number.mantissa - 2
  let high := 4 * number.mantissa + 2
  let closed := number.mantissa % 2 == 0
  let fromLow := compareScaled decimal.digits decimal.exponent low (number.exponent - 2)
  let fromHigh := compareScaled decimal.digits decimal.exponent high (number.exponent - 2)
  (fromLow == .gt || (closed && fromLow == .eq)) && (fromHigh == .lt || (closed && fromHigh == .eq))

/-- The decimal exponent just above the number: the least `scale` with
`mantissa * 2 ^ exponent < 10 ^ scale`.  The estimate from the binary length is
never too large and at most two too small. -/
def Binary.scale (number : Binary) : Int :=
  let length : Int := Int.ofNat number.mantissa.log2 + number.exponent
  let estimate := Int.fdiv (length * 1233) 4096
  let below (scale : Int) : Bool :=
    compareScaled 1 scale number.mantissa number.exponent == .gt
  if below estimate then estimate
  else if below (estimate + 1) then estimate + 1
  else estimate + 2

/-- The better of the two neighbours of the number on the grid of multiples of
`10 ^ exponent`, among those that read back. -/
def Binary.onGrid (number : Binary) (exponent : Int) : Option Digits :=
  let numerator :=
    number.mantissa * Nat.pow 2 number.exponent.toNat * Nat.pow 10 (-exponent).toNat
  let denominator := Nat.pow 2 (-number.exponent).toNat * Nat.pow 10 exponent.toNat
  let floor := numerator / denominator
  let lower : Digits := ⟨floor, exponent⟩
  let upper : Digits := ⟨floor + 1, exponent⟩
  let nearer : Digits :=
    match compare (2 * (numerator % denominator)) denominator with
    | .lt => lower
    | .gt => upper
    | .eq => if floor % 2 == 0 then lower else upper
  if number.readsBack lower then
    if number.readsBack upper then some nearer else some lower
  else if number.readsBack upper then some upper
  else none

def Digits.stripZeros (decimal : Digits) : Digits :=
  if positive : 0 < decimal.digits ∧ decimal.digits % 10 = 0 then
    Digits.stripZeros ⟨decimal.digits / 10, decimal.exponent + 1⟩
  else decimal
termination_by decimal.digits
decreasing_by exact Nat.div_lt_self positive.1 (by decide)

/-- The shortest decimal that reads back to a positive number.  Seventeen
digits always suffice; the exact value stands behind the search. -/
def Binary.shortest (number : Binary) : Digits :=
  let scale := number.scale
  let lengths := (List.range 17).map fun index => Int.ofNat (index + 1)
  match lengths.findSome? (fun length => number.onGrid (scale - length)) with
  | some decimal => decimal.stripZeros
  | none =>
    Digits.stripZeros
      ⟨number.mantissa * Nat.pow 2 number.exponent.toNat * Nat.pow 5 (-number.exponent).toNat,
        if number.exponent < 0 then number.exponent else 0⟩

/-- Where positional notation ends. -/
structure Layout where
  /-- Positional when the decimal point lies after more than this many digits. -/
  pointAbove : Int
  /-- Positional when the decimal point lies after at most this many digits. -/
  pointUpTo : Int

/-- Numbers are written positionally when the point falls between four zeros
in front of the digits and the sixteenth place behind them. -/
def numberLayout : Layout := ⟨-5, 16⟩

def zeros (count : Nat) : String :=
  String.ofList (List.replicate count '0')

/-- Lay a positive decimal out.  `point` is the number of digits in front of
the decimal point; a positional number always shows its point, an exponent
always its sign. -/
def layOut (layout : Layout) (decimal : Digits) : String :=
  let characters := (toString decimal.digits).toList
  let count : Int := Int.ofNat characters.length
  let point := count + decimal.exponent
  if layout.pointAbove < point ∧ point ≤ layout.pointUpTo then
    if point ≤ 0 then "0." ++ zeros (-point).toNat ++ String.ofList characters
    else if point < count then
      String.ofList (characters.take point.toNat) ++ "." ++
        String.ofList (characters.drop point.toNat)
    else String.ofList characters ++ zeros (point - count).toNat ++ ".0"
  else
    let power := point - 1
    let mark := if power < 0 then "e-" else "e+"
    let head := String.ofList (characters.take 1)
    let tail := characters.drop 1
    let fraction := if tail.isEmpty then "" else "." ++ String.ofList tail
    head ++ fraction ++ mark ++ toString power.natAbs

/-- The written form of a finite number.  A number without a written form, an
infinity or the undefined number, is written as the missing value. -/
def render (number : Float) : String :=
  if number.isFinite then
    let exact := Binary.ofFloat number
    let sign := if exact.negative then "-" else ""
    if exact.mantissa == 0 then sign ++ "0.0"
    else sign ++ layOut numberLayout exact.shortest
  else "null"

end Decimal
end RouteDocs
