import RouteDocs.Decimal.Binary

namespace RouteDocs
namespace Decimal

/-!
# Numbers written in a text

A number in a text is an optional sign, digits with an optional point, and an
optional exponent.  Digits are the ten ASCII digits.  An integer has neither
point nor exponent.  The value of a decimal is the nearest binary64 number; a
decimal too large for one has no value.
-/

/-- The value of one digit in a base up to thirty-six. -/
def digitValue? (base : Nat) (character : Char) : Option Nat :=
  let code := character.toNat
  let value? :=
    if 48 ≤ code ∧ code ≤ 57 then some (code - 48)
    else if 97 ≤ code ∧ code ≤ 122 then some (code - 87)
    else if 65 ≤ code ∧ code ≤ 90 then some (code - 55)
    else none
  value?.filter fun value => decide (value < base)

/-- Whether a character is one of the ten ASCII digits. -/
def isDigit (character : Char) : Bool :=
  decide (48 ≤ character.toNat) && decide (character.toNat ≤ 57)

def digitsValue (digits : List Char) : Nat :=
  digits.foldl (fun value digit => 10 * value + (digit.toNat - 48)) 0

/-- The number written by a non-empty run of digits in a base. -/
def natural? (base : Nat) (digits : List Char) : Option Nat :=
  if digits.isEmpty then none
  else
    digits.foldl
      (fun value? digit =>
        match value?, digitValue? base digit with
        | some value, some next => some (base * value + next)
        | _, _ => none)
      (some 0)

/-- Split off a sign; without one the number is not negative. -/
def splitSign (text : List Char) : Bool × List Char :=
  match text with
  | '-' :: rest => (true, rest)
  | '+' :: rest => (false, rest)
  | _ => (false, text)

/-- Whether an integer fits sixty-four signed bits. -/
def fitsSigned (value : Int) : Bool :=
  decide (-Int.ofNat (Nat.pow 2 63) ≤ value) && decide (value < Int.ofNat (Nat.pow 2 63))

/-- The integer a text writes, when it is one of sixty-four signed bits. -/
def integer? (text : List Char) : Option Int :=
  let (negative, digits) := splitSign text
  match natural? 10 digits with
  | some size =>
    let value := if negative then -Int.ofNat size else Int.ofNat size
    if fitsSigned value then some value else none
  | none => none

/-- A written decimal, `digits * 10 ^ exponent` with a sign. -/
structure Numeral where
  negative : Bool
  digits : Nat
  exponent : Int

/-- Read the exponent behind the digits: nothing, or the letter, an optional
sign and at least one digit. -/
def readExponent (text : List Char) : Option Int :=
  match text with
  | [] => some 0
  | mark :: rest =>
    if mark = 'e' ∨ mark = 'E' then
      let (negative, digits) := splitSign rest
      match natural? 10 digits with
      | some size => some (if negative then -Int.ofNat size else Int.ofNat size)
      | none => none
    else none

/-- Read a decimal.  Digits may be missing on one side of the point, not on both. -/
def Numeral.read? (text : List Char) : Option Numeral :=
  let (negative, unsigned) := splitSign text
  let whole := unsigned.takeWhile isDigit
  let afterWhole := unsigned.dropWhile isDigit
  let (fraction, rest) :=
    match afterWhole with
    | '.' :: afterPoint => (afterPoint.takeWhile isDigit, afterPoint.dropWhile isDigit)
    | _ => ([], afterWhole)
  if whole.isEmpty && fraction.isEmpty then none
  else
    match readExponent rest with
    | some exponent =>
      some ⟨negative, digitsValue (whole ++ fraction), exponent - Int.ofNat fraction.length⟩
    | none => none

/-- The nearest finite number, when there is one.  Exponents far outside the
range are settled by their size alone. -/
def Numeral.toFloat? (numeral : Numeral) : Option Float :=
  let length : Int := Int.ofNat (toString numeral.digits).length
  let size? :=
    if numeral.digits = 0 then some 0.0
    else if 400 < length + numeral.exponent then none
    else if length + numeral.exponent < -400 then some 0.0
    else
      let size := Float.ofScientific numeral.digits (decide (numeral.exponent < 0))
        numeral.exponent.natAbs
      if size.isFinite then some size else none
  size?.map fun size => if numeral.negative then -size else size

def real? (text : List Char) : Option Float :=
  match Numeral.read? text with
  | some numeral => numeral.toFloat?
  | none => none

end Decimal
end RouteDocs
