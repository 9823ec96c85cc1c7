import RouteDocs.Json.Basic

namespace RouteDocs

/-!
# Validation rules

A rule describes one value of an incoming request: its kind with the
constraints of that kind, and the flags that every kind may carry.  Rules nest
through list items, object fields, record values and alternatives, so rules
and kinds are defined together.  What a rule says for documentation only is
kept apart in its notes.
-/

/-- Documentation attached to a rule.  It never takes part in validation. -/
structure Notes where
  description : Option String := none
  summary : Option String := none
  deprecated : Option Bool := none
deriving DecidableEq

namespace Notes

def isEmpty (notes : Notes) : Bool :=
  notes.description.isNone && notes.summary.isNone && notes.deprecated.isNone

/-- Fill what is not noted from the notes of an enclosing rule. -/
def inherit (notes defaults : Notes) : Notes where
  description := notes.description.or defaults.description
  summary := notes.summary.or defaults.summary
  deprecated := notes.deprecated.or defaults.deprecated

end Notes

structure TextLimits where
  min : Option Nat := none
  max : Option Nat := none
  /-- The exact length; it overrides both bounds. -/
  length : Option Nat := none
  pattern : Option String := none
  /-- A part the text must contain. -/
  contains : Option String := none
  choices : Option (List Json) := none
  alpha : Bool := false
  numeric : Bool := false
  alphanum : Bool := false
  alphadash : Bool := false
  hex : Bool := false
  base64 : Bool := false
  singleLine : Bool := false
  /-- Whether the empty text is accepted, when said. -/
  empty : Option Bool := none

structure NumberLimits where
  min : Option Float := none
  max : Option Float := none
  equal : Option Float := none
  notEqual : Option Float := none
  integer : Bool := false
  positive : Bool := false
  negative : Bool := false

/-- The constraints of a list, its item rule apart. -/
structure ListLimits where
  min : Option Nat := none
  max : Option Nat := none
  /-- The exact count; it overrides both bounds. -/
  length : Option Nat := none
  unique : Bool := false
  /-- A value the list must contain. -/
  contains : Option Json := none
  choices : Option (List Json) := none
  /-- Whether the empty list is accepted, when said. -/
  empty : Option Bool := none

structure ObjectLimits where
  /-- Fields that are not declared are rejected. -/
  strict : Bool := false
  minProps : Option Nat := none
  maxProps : Option Nat := none

/-- How an amount of money is written. -/
structure CurrencyFormat where
  symbol : Option String := none
  symbolOptional : Bool := false
  thousandSeparator : Option String := none
  decimalSeparator : Option String := none
  /-- A regular expression that replaces all of the above. -/
  customPattern : Option String := none

mutual

/-- A rule: a kind and the flags of every kind. -/
structure Rule where
  kind : RuleKind
  /-- The value may be absent. -/
  optional : Bool := false
  /-- The value may be the missing value. -/
  nullable : Bool := false
  /-- The value that stands in for an absent one. -/
  fallback : Option Json := none
  notes : Notes := {}

/-- The kinds of rules with their constraints. -/
inductive RuleKind where
  | any
  /-- A list whose items follow one rule. -/
  | array (items : Option Rule) (limits : ListLimits)
  | boolean
  /-- An instance of a class of the validating program. -/
  | instanceOf
  | currency (format : CurrencyFormat)
  /-- Checked by code of the validating program. -/
  | custom
  /-- A date; with `convert` it may arrive as text or as a number. -/
  | date (convert : Bool)
  | email
  | enumeration (values : List Json)
  /-- Equal to a constant or to another field of the same object. -/
  | equal (value : Option Json) (field : Option String) (strict : Bool)
  /-- The value must be absent. -/
  | forbidden
  | function
  | luhn
  | mac
  /-- One of several rules. -/
  | multi (members : List Rule)
  | number (limits : NumberLimits)
  | object (fields : Option (List (String × Rule))) (limits : ObjectLimits)
  | objectId
  /-- An object with free names whose values follow one rule. -/
  | record (key value : Option Rule)
  | text (limits : TextLimits)
  /-- A list of fixed length, one rule per place. -/
  | tuple (members : List Rule)
  | url
  | uuid (version : Option Nat)
  /-- A kind that is known by name only. -/
  | other (name : String)

end

/-- The name of a kind without its constraints. -/
inductive RuleTag where
  | any
  | array
  | boolean
  | instanceOf
  | currency
  | custom
  | date
  | email
  | enumeration
  | equal
  | forbidden
  | function
  | luhn
  | mac
  | multi
  | number
  | object
  | objectId
  | record
  | text
  | tuple
  | url
  | uuid
  | other
deriving DecidableEq

namespace RuleTag

def known : List RuleTag :=
  [.any, .array, .boolean, .instanceOf, .currency, .custom, .date, .email, .enumeration, .equal,
    .forbidden, .function, .luhn, .mac, .multi, .number, .object, .objectId, .record, .text,
    .tuple, .url, .uuid]

/-- The name a rule gives as its type. -/
def name (tag : RuleTag) : String :=
  match tag with
  | .any => "any"
  | .array => "array"
  | .boolean => "boolean"
  | .instanceOf => "class"
  | .currency => "currency"
  | .custom => "custom"
  | .date => "date"
  | .email => "email"
  | .enumeration => "enum"
  | .equal => "equal"
  | .forbidden => "forbidden"
  | .function => "function"
  | .luhn => "luhn"
  | .mac => "mac"
  | .multi => "multi"
  | .number => "number"
  | .object => "object"
  | .objectId => "objectID"
  | .record => "record"
  | .text => "string"
  | .tuple => "tuple"
  | .url => "url"
  | .uuid => "uuid"
  | .other => "other"

def ofName? (name : String) : Option RuleTag :=
  known.find? fun tag => tag.name == name

end RuleTag

def RuleKind.tag (kind : RuleKind) : RuleTag :=
  match kind with
  | .any => .any
  | .array _ _ => .array
  | .boolean => .boolean
  | .instanceOf => .instanceOf
  | .currency _ => .currency
  | .custom => .custom
  | .date _ => .date
  | .email => .email
  | .enumeration _ => .enumeration
  | .equal _ _ _ => .equal
  | .forbidden => .forbidden
  | .function => .function
  | .luhn => .luhn
  | .mac => .mac
  | .multi _ => .multi
  | .number _ => .number
  | .object _ _ => .object
  | .objectId => .objectId
  | .record _ _ => .record
  | .text _ => .text
  | .tuple _ => .tuple
  | .url => .url
  | .uuid _ => .uuid
  | .other _ => .other

namespace Rule

instance : Inhabited Rule := ⟨{ kind := .any }⟩

def text : Rule := { kind := .text {} }

def number : Rule := { kind := .number {} }

def boolean : Rule := { kind := .boolean }

def object (fields : Entries Rule) : Rule := { kind := .object (some fields) {} }

def array (items : Rule) : Rule := { kind := .array (some items) {} }

/-- A value may be left out when the rule says so or when a fallback stands in. -/
def isOptional (rule : Rule) : Bool :=
  rule.optional || rule.fallback.isSome

end Rule

/-- What an operation accepts: named fields, or one value as a whole. -/
inductive Params where
  | fields (named : Entries Rule) (notes : Notes)
  | root (rule : Rule)

namespace Params

/-- The named fields with the notes of the object they form.  A root object
rule with declared fields has them too. -/
def fieldRules? (params : Params) : Option (Entries Rule × Notes) :=
  match params with
  | .fields named notes => some (named, notes)
  | .root rule =>
    match rule.kind with
    | .object (some named) _ => some (named, rule.notes)
    | _ => none

/-- Whether the whole value is described by an object rule. -/
def isObjectRule (params : Params) : Bool :=
  match params with
  | .fields _ _ => false
  | .root rule => rule.kind.tag == .object

end Params
end RouteDocs
