import RouteDocs.Entries
import RouteDocs.Decimal.Numeral

namespace RouteDocs

/-!
# JSON values

Rules, settings and documents are JSON values whose objects keep the order of
their keys.  Integers and other numbers are told apart: `1` and `1.0` are
different values.  Integers lie between the least signed and the greatest
unsigned number of sixty-four bits.
-/

/-- A JSON value with ordered objects. -/
inductive Json where
  | null
  | bool (value : Bool)
  | integer (value : Int)
  | real (value : Float)
  | text (value : String)
  | list (items : List Json)
  | object (entries : List (String × Json))

namespace Json

instance : Inhabited Json := ⟨.null⟩

mutual

/-- Whether two values are the same up to the order of object keys.  Numbers
are compared as numbers of one kind, so the two zeros are the same real. -/
def same (left right : Json) : Bool :=
  match left, right with
  | .null, .null => true
  | .bool first, .bool second => first == second
  | .integer first, .integer second => first == second
  | .real first, .real second => first == second
  | .text first, .text second => first == second
  | .list first, .list second => sameItems first second
  | .object first, .object second => first.length == second.length && sameEntries first second
  | _, _ => false

def sameItems (left right : List Json) : Bool :=
  match left, right with
  | [], [] => true
  | first :: left, second :: right => same first second && sameItems left right
  | _, _ => false

def sameEntries (left right : List (String × Json)) : Bool :=
  match left with
  | [] => true
  | (key, value) :: rest =>
    (match Entries.get? right key with
      | some other => same value other
      | none => false) && sameEntries rest right

end

def asText? (value : Json) : Option String :=
  match value with
  | .text characters => some characters
  | _ => none

/-- The value as a non-negative integer of sixty-four bits.  A whole real
counts as one; beyond the range it counts as the greatest. -/
def asNatural? (value : Json) : Option Nat :=
  match value with
  | .integer (.ofNat size) => some size
  | .real number =>
    match Decimal.whole? number with
    | some (.ofNat size) => some (min size (UInt64.size - 1))
    | _ => none
  | _ => none

/-- The value as a number; an integer counts as the nearest real. -/
def asReal? (value : Json) : Option Float :=
  match value with
  | .integer size => some (Decimal.ofInt size)
  | .real number => some number
  | _ => none

/-- A number without fractional part is written as an integer when it lies
strictly between the bounds of sixty-four signed bits. -/
def ofNumber (number : Float) : Json :=
  match Decimal.whole? number with
  | some value => if value.natAbs < Nat.pow 2 63 then .integer value else .real number
  | none => .real number

def texts (values : List String) : Json :=
  .list (values.map .text)

/-- The object with the entries whose value is present. -/
def ofOptional (entries : List (String × Option Json)) : Entries Json :=
  entries.filterMap fun entry => entry.2.map fun value => (entry.1, value)

end Json
end RouteDocs
