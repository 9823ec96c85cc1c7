import RouteDocs.Decimal.Numeral
import RouteDocs.Input.Node

namespace RouteDocs
namespace Yaml

/-!
# The meaning of scalars

A scalar in quotes means its own text.  A scalar without quotes means the
missing value, a truth value, a number or, failing all of these, its own text.
Digits behind a leading zero are a text.  An integer must fit sixty-four bits
to have a meaning; one that does not even fit twice as many counts as a number
with a point.
-/

def nulls : List String := ["", "~", "null", "Null", "NULL"]

def truth? (text : String) : Option Bool :=
  if ["true", "True", "TRUE"].contains text then some true
  else if ["false", "False", "FALSE"].contains text then some false
  else none

/-- Whether a text consists of digits behind a leading zero. -/
def hasLeadingZero (text : List Char) : Bool :=
  match (Decimal.splitSign text).2 with
  | '0' :: digit :: rest => (digit :: rest).all Decimal.isDigit
  | _ => false

/-- The size of an integer without its sign, in base ten or in a base named by
two characters in front. -/
def size? (text : List Char) : Option Nat :=
  match text with
  | '0' :: 'x' :: digits => Decimal.natural? 16 digits
  | '0' :: 'o' :: digits => Decimal.natural? 8 digits
  | '0' :: 'b' :: digits => Decimal.natural? 2 digits
  | digits => if hasLeadingZero digits then none else Decimal.natural? 10 digits

/-- The integer that a text means, of whatever size. -/
def integer? (text : List Char) : Option Int :=
  let (negative, unsigned) := Decimal.splitSign text
  (size? unsigned).map fun size => if negative then -Int.ofNat size else Int.ofNat size

/-- Whether a text means one of the numbers that no value can hold. -/
def isUnbounded (text : List Char) : Bool :=
  [".inf", ".Inf", ".INF", "+.inf", "+.Inf", "+.INF", "-.inf", "-.Inf", "-.INF",
    ".nan", ".NaN", ".NAN"].any fun name => name.toList == text

/-- The number with a point that a text means, or else the text itself. -/
def realOrText (text : List Char) : Node :=
  let spelling := String.ofList text
  if hasLeadingZero text then .ofText spelling
  else if isUnbounded text then .unbounded spelling
  else
    match Decimal.real? text with
    | some value => .scalar (.real value) (some spelling)
    | none => .ofText spelling

/-- A scalar without quotes as a node. -/
def bareNode (text : List Char) : Node :=
  let spelling := String.ofList text
  if nulls.contains spelling then .scalar .null (some spelling)
  else
    match truth? spelling with
    | some flag => .scalar (.bool flag) (some spelling)
    | none =>
      match integer? text with
      | some value =>
        if -Int.ofNat (Nat.pow 2 63) ≤ value ∧ value < Int.ofNat (Nat.pow 2 64) then
          .scalar (.integer value) (some spelling)
        else if -Int.ofNat (Nat.pow 2 127) ≤ value ∧ value < Int.ofNat (Nat.pow 2 128) then
          .meaningless (some spelling)
        else realOrText text
      | none => realOrText text

def quotedNode (text : List Char) : Node :=
  .ofText (String.ofList text)

def blank : Node := bareNode []

end Yaml
end RouteDocs
