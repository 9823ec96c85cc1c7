import RouteDocs.Json.Basic

namespace RouteDocs

/-!
# Schemas

A schema describes a value to the readers of a document.  It is a reference to
a named component or an inline object, never both.  An inline object has
facets, which hold no further schemas, and parts, which do.  Properties keep
their order.
-/

inductive SchemaType where
  | string
  | number
  | integer
  | boolean
  | array
  | object
deriving DecidableEq

def SchemaType.keyword (type : SchemaType) : String :=
  match type with
  | .string => "string"
  | .number => "number"
  | .integer => "integer"
  | .boolean => "boolean"
  | .array => "array"
  | .object => "object"

/-- What an inline schema says without further schemas. -/
structure Facets where
  /-- Without a type, values of every type are described. -/
  type : Option SchemaType := none
  format : Option String := none
  description : Option String := none
  summary : Option String := none
  deprecated : Option Bool := none
  /-- The missing value is accepted. -/
  nullable : Bool := false
  fallback : Option Json := none
  examples : List Json := []
  choices : Option (List Json) := none
  pattern : Option String := none
  minLength : Option Nat := none
  maxLength : Option Nat := none
  minimum : Option Float := none
  maximum : Option Float := none
  exclusiveMinimum : Option Float := none
  exclusiveMaximum : Option Float := none
  minItems : Option Nat := none
  maxItems : Option Nat := none
  uniqueItems : Option Bool := none
  required : List String := []
  minProperties : Option Nat := none
  maxProperties : Option Nat := none

mutual

inductive Schema where
  /-- A reference to a component. -/
  | ref (name : String)
  | inline (object : SchemaObject)

/-- An inline schema: facets and parts. -/
structure SchemaObject extends Facets where
  items : Option Schema := none
  properties : List (String × Schema) := []
  additional : Option Additional := none
  oneOf : List Schema := []
  anyOf : List Schema := []
  allOf : List Schema := []

/-- What holds for properties that are not named. -/
inductive Additional where
  | allowed (flag : Bool)
  | schema (schema : Schema)

end

/-- A schema together with what a document never shows of it: whether the
described value may be left out. -/
structure Fragment where
  schema : Schema
  optional : Bool

namespace SchemaObject

instance : Inhabited SchemaObject := ⟨{}⟩

def typed (type : SchemaType) : SchemaObject := { type := some type }

/-- A text of a named format. -/
def formatted (format : String) : SchemaObject :=
  { type := some .string, format := some format }

def isObject (object : SchemaObject) : Bool :=
  object.type == some .object

/-- Whether the schema is stored as a component where it is nested: it
describes objects and names properties. -/
def isNamedObject (object : SchemaObject) : Bool :=
  object.isObject && !object.properties.isEmpty

end SchemaObject

namespace Schema

instance : Inhabited Schema := ⟨.inline {}⟩

def typed (type : SchemaType) : Schema := .inline (.typed type)

/-- The inline object of a schema that is no reference. -/
def object? (schema : Schema) : Option SchemaObject :=
  match schema with
  | .ref _ => none
  | .inline object => some object

end Schema
end RouteDocs
