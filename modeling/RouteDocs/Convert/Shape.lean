import RouteDocs.Convert.Format
import RouteDocs.Convert.Mapper
import RouteDocs.Schema.Basic
import RouteDocs.Json.Written

namespace RouteDocs

/-!
# Schemas from constraints

The schema of one rule, given the schemas of the rules inside it.  Each
function reads the constraints of one kind.  A mapper may be set for a kind
that is not its own; then it makes its schema without constraints.
-/

/-- A lower bound of a count: the exact count or the bound that was set, and
at least one where the empty value is refused. -/
def leastCount (min length : Option Nat) (empty : Option Bool) : Option Nat :=
  let least := length.or min
  if empty == some false && least.getD 0 == 0 then some 1 else least

namespace TextLimits

/-- The pattern of a text: its own, or that of a mark, or one for the part it
must contain. -/
def patternText (limits : TextLimits) : Option String :=
  (limits.pattern.or (Format.markPattern limits)).or (limits.contains.map Pattern.around)

def schema (limits : TextLimits) : SchemaObject where
  type := some .string
  format := if limits.base64 then some "byte" else none
  choices := limits.choices
  pattern := limits.patternText
  minLength := leastCount limits.min limits.length limits.empty
  maxLength := limits.length.or limits.max

end TextLimits

namespace NumberLimits

/-- Zero is excluded from below where the number must be positive and no
greater bound says so already. -/
def excludesBelow (limits : NumberLimits) : Bool :=
  limits.positive && (match limits.min with
    | some min => decide (min ≤ 0.0)
    | none => true)

/-- Zero is excluded from above where the number must be negative and no
smaller bound says so already. -/
def excludesAbove (limits : NumberLimits) : Bool :=
  limits.negative && (match limits.max with
    | some max => decide (0.0 ≤ max)
    | none => true)

def schema (limits : NumberLimits) : SchemaObject where
  type := some (if limits.integer then .integer else .number)
  choices := limits.equal.map fun value => [Json.ofNumber value]
  minimum := if limits.excludesBelow then none else limits.min
  maximum := if limits.excludesAbove then none else limits.max
  exclusiveMinimum := if limits.excludesBelow then some 0.0 else none
  exclusiveMaximum := if limits.excludesAbove then some 0.0 else none

end NumberLimits

namespace ListLimits

/-- The schema of the items.  Allowed values replace those of the item schema,
or stand alone where there is none. -/
def itemSchema (limits : ListLimits) (items : Option Schema) : Option Schema :=
  match limits.choices, items with
  | none, items => items
  | some values, some (.inline object) => some (.inline { object with choices := some values })
  | some _, some (.ref name) => some (.ref name)
  | some values, none => some (.inline { choices := some values })

def schema (limits : ListLimits) (items : Option Schema) : SchemaObject where
  type := some .array
  items := limits.itemSchema items
  minItems := leastCount limits.min limits.length limits.empty
  maxItems := limits.length.or limits.max
  uniqueItems := if limits.unique then some true else none

end ListLimits

namespace Fragment

/-- The names of the values that must be present. -/
def requiredNames (fields : Entries Fragment) : List String :=
  (fields.filter fun entry => !entry.2.optional).map Prod.fst

def schemas (fields : Entries Fragment) : Entries Schema :=
  fields.mapValues Fragment.schema

end Fragment

namespace ObjectLimits

def schema (limits : ObjectLimits) (fields : Entries Fragment) : SchemaObject where
  type := some .object
  properties := Fragment.schemas fields
  required := Fragment.requiredNames fields
  additional := if limits.strict then some (.allowed false) else none
  minProperties := limits.minProps
  maxProperties := limits.maxProps

end ObjectLimits

namespace SchemaObject

def oneOfThese (members : List Schema) : SchemaObject where
  oneOf := members

def withExample (object : SchemaObject) (sample : String) : SchemaObject :=
  { object with examples := [.text sample] }

def patterned (pattern sample : String) : SchemaObject :=
  { type := some .string, pattern := some pattern, examples := [.text sample] }

def record (value : Option Schema) : SchemaObject where
  type := some .object
  additional := some (match value with
    | some schema => .schema schema
    | none => .allowed true)

/-- The schema of a list with one rule per place: each item is one of the
members that appear in the document. -/
def tuple (count : Nat) (members : List Schema) : SchemaObject where
  type := some .array
  items := if members.isEmpty then none else some (.inline (oneOfThese members))
  minItems := some count
  maxItems := some count

/-- The type of a value; the missing value has none. -/
def typeOf (value : Json) : Option SchemaType :=
  match value with
  | .null => none
  | .bool _ => some .boolean
  | .integer _ => some .integer
  | .real _ => some .number
  | .text _ => some .string
  | .list _ => some .array
  | .object _ => some .object

/-- The schema of a value that equals a constant.  Strictly equal values have
the type of the constant; otherwise its text counts. -/
def constant (value : Option Json) (strict : Bool) : SchemaObject :=
  match value with
  | none => typed .string
  | some constant =>
    if strict then { type := typeOf constant, examples := [constant] }
    else (typed .string).withExample (constant.asText?.getD constant.compact)

/-- The schema of a date that arrives as a text or as a number. -/
def date : SchemaObject :=
  oneOfThese
    [.inline ((formatted "date-time").withExample Format.dateExample),
     .inline { type := some .number, examples := [.integer Format.epochExample] }]

def uuid (version : Option Nat) : SchemaObject :=
  { type := some .string, format := some "uuid", pattern := some (Format.uuidPattern version),
    examples := [.text (Format.uuidExample version)] }

def currency (format : CurrencyFormat) : SchemaObject where
  type := some .string
  pattern := some format.pattern
  examples := format.example?.toList.map .text

end SchemaObject

namespace RuleKind

/-- The constraints that a kind sets for a text.  Allowed values are such a
constraint; the other kinds set none. -/
def textLimits (kind : RuleKind) : TextLimits :=
  match kind with
  | .text limits => limits
  | .enumeration values => { choices := some values }
  | _ => {}

/-- The schema of a number; of another kind, any number. -/
def numberSchema (kind : RuleKind) : SchemaObject :=
  match kind with
  | .number limits => limits.schema
  | _ => .typed .number

/-- The schema of a date.  Only a date that is converted appears in a document. -/
def dateSchema (kind : RuleKind) : Option SchemaObject :=
  match kind with
  | .date true => some .date
  | _ => none

def uuidVersion (kind : RuleKind) : Option Nat :=
  match kind with
  | .uuid version => version
  | _ => none

/-- The schema of an amount of money; of another kind, any text. -/
def currencySchema (kind : RuleKind) : SchemaObject :=
  match kind with
  | .currency format => .currency format
  | _ => .typed .string

end RuleKind

/-- The schema that a mapper makes without looking into other rules.  For a
mapper that does look into them it is the schema of a rule of another kind. -/
def Mapper.plainSchema (mapper : Mapper) (kind : RuleKind) : Option SchemaObject :=
  match mapper with
  | .any => some {}
  | .omitted => none
  | .boolean => some (.typed .boolean)
  | .number => some kind.numberSchema
  | .text => some kind.textLimits.schema
  | .enumeration => some kind.textLimits.schema
  | .array => some (.typed .array)
  | .object => some (.typed .object)
  | .record => some (.record none)
  | .tuple => some (.typed .array)
  | .multi => none
  | .equal => some (.typed .string)
  | .date => kind.dateSchema
  | .email => some ((SchemaObject.formatted "email").withExample Format.emailExample)
  | .url => some ((SchemaObject.formatted "uri").withExample Format.urlExample)
  | .uuid => some (.uuid kind.uuidVersion)
  | .mac => some (.patterned Format.macPattern Format.macExample)
  | .luhn => some (.patterned Format.luhnPattern Format.luhnExample)
  | .objectId => some (.patterned Format.objectIdPattern Format.objectIdExample)
  | .currency => some kind.currencySchema

end RouteDocs
