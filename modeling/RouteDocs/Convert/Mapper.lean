import RouteDocs.Fault
import RouteDocs.Schema.Basic

namespace RouteDocs

/-!
# Mappers

A mapper makes a schema from a rule.  A table says which mapper serves which
kind of rule, and may leave kinds without one.  The mapper for texts is the
base of the table: it also serves the kinds that are known by name only and
the lists of allowed values.

Besides the mappers listed here a table may have functions that its caller has
written.  Nothing is known of what such a function makes of a rule.
-/

/-- The ways to make a schema from a rule. -/
inductive Mapper where
  | any
  /-- The value does not appear in the document. -/
  | omitted
  | boolean
  | number
  | text
  | enumeration
  | array
  | object
  | record
  | tuple
  | multi
  | equal
  | date
  | email
  | url
  | uuid
  | mac
  | luhn
  | objectId
  | currency
deriving DecidableEq

namespace Mapper

def all : List Mapper :=
  [.any, .omitted, .boolean, .number, .text, .enumeration, .array, .object, .record, .tuple,
    .multi, .equal, .date, .email, .url, .uuid, .mac, .luhn, .objectId, .currency]

def name (mapper : Mapper) : String :=
  match mapper with
  | .any => "any"
  | .omitted => "omitted"
  | .boolean => "boolean"
  | .number => "number"
  | .text => "string"
  | .enumeration => "enum"
  | .array => "array"
  | .object => "object"
  | .record => "record"
  | .tuple => "tuple"
  | .multi => "multi"
  | .equal => "equal"
  | .date => "date"
  | .email => "email"
  | .url => "url"
  | .uuid => "uuid"
  | .mac => "mac"
  | .luhn => "luhn"
  | .objectId => "objectID"
  | .currency => "currency"

def ofName? (name : String) : Option Mapper :=
  all.find? fun mapper => mapper.name == name

end Mapper

/-- The fields around a rule, and those of them whose conversion is under way. -/
structure Scope where
  siblings : Entries Rule := []
  resolving : List String := []

/-- What a table has for a kind of rule: a mapper of its own, or a function of
the caller.  Such a function may convert further rules with the table that it
stands in.  What it answers for a rule in a scope is all that is kept of it, so
it has to answer, and the same each time it is asked. -/
inductive KindMapper where
  | own (mapper : Mapper)
  | caller (map : Rule -> Scope -> Except Fault (Option SchemaObject))

instance : Coe Mapper KindMapper := ⟨.own⟩

/-- Which mapper serves which kind of rule. -/
structure MapperTable where
  mapper? : RuleTag -> Option KindMapper

namespace MapperTable

def empty : MapperTable where
  mapper? := fun _ => none

/-- The mapper that a kind has by itself. -/
def builtinMapper (tag : RuleTag) : Option Mapper :=
  match tag with
  | .any => some .any
  | .array => some .array
  | .boolean => some .boolean
  | .instanceOf => some .omitted
  | .currency => some .currency
  | .custom => some .omitted
  | .date => some .date
  | .email => some .email
  | .enumeration => some .enumeration
  | .equal => some .equal
  | .forbidden => some .omitted
  | .function => some .omitted
  | .luhn => some .luhn
  | .mac => some .mac
  | .multi => some .multi
  | .number => some .number
  | .object => some .object
  | .objectId => some .objectId
  | .record => some .record
  | .text => some .text
  | .tuple => some .tuple
  | .url => some .url
  | .uuid => some .uuid
  | .other => none

/-- The table with a mapper for every kind. -/
def builtin : MapperTable where
  mapper? := fun tag => (builtinMapper tag).map .own

/-- The same table with another mapper for one kind. -/
def insert (table : MapperTable) (tag : RuleTag) (mapper : KindMapper) : MapperTable where
  mapper? := fun asked => if asked = tag then some mapper else table.mapper? asked

def contains (table : MapperTable) (tag : RuleTag) : Bool :=
  (table.mapper? tag).isSome

/-- The names of the kinds with a mapper of their own, in the order of the alphabet. -/
def tagNames (table : MapperTable) : List String :=
  (((RuleTag.known ++ [RuleTag.other]).filter table.contains).map RuleTag.name).mergeSort
    fun first second => decide (first ≤ second)

/-- The table as shown to people who set it up. -/
def summary (table : MapperTable) : String :=
  let names := table.tagNames.map fun name => "\"" ++ name ++ "\""
  "MapperTable \x7b kinds: [" ++ ", ".intercalate names ++ "] \x7d"

/-- The base mapper.

A table may have the mapper for allowed values serve the texts themselves.
This mapper asks the base, which then is the same mapper, so converting a text
with such a table never ends.  The base of such a table is taken to be the
mapper for texts.  Nothing is said by this about what becomes of a text there. -/
def base (table : MapperTable) : Except Fault KindMapper :=
  match table.mapper? .text with
  | some (.own .enumeration) => .ok (.own .text)
  | some mapper => .ok mapper
  | none => .error .noBaseMapper

/-- A mapper, with the one for allowed values replaced by the base. -/
def settle (table : MapperTable) (mapper : KindMapper) : Except Fault KindMapper :=
  match mapper with
  | .own .enumeration => table.base
  | other => .ok other

/-- The mapper that serves a kind of rule. -/
def mapperFor (table : MapperTable) (tag : RuleTag) : Except Fault KindMapper :=
  match table.mapper? tag with
  | some mapper => table.settle mapper
  | none => if tag = .other then table.base else .error (.noMapper tag)

end MapperTable
end RouteDocs
