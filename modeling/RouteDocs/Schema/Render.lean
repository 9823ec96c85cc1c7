import RouteDocs.Schema.Basic
import RouteDocs.Version

namespace RouteDocs

/-!
# Rendered schemas

A schema is written as a JSON object with its keys in a fixed order.  The two
lines of the format differ in three places: a nullable type is a mark or a
second type, an exclusive bound is a mark on the bound or a bound of its own,
and examples are one value or a list.
-/

/-- What stands in front of the name in a reference. -/
def referenceMark : String := "#/components/schemas/"

namespace Facets

/-- The keys for the type and for the missing value. -/
def typeEntries (version : Version) (facets : Facets) : List (String × Option Json) :=
  match version with
  | .v31 =>
    [("type", facets.type.map fun type =>
      if facets.nullable then .list [.text type.keyword, .text "null"] else .text type.keyword)]
  | .v30 =>
    [("type", facets.type.map fun type => .text type.keyword),
     ("nullable", if facets.nullable then some (.bool true) else none)]

/-- The keys of the bounds of a number.  In the earlier line an exclusive
bound stands in the place of the inclusive one and is marked. -/
def boundEntries (version : Version) (facets : Facets) : List (String × Option Json) :=
  if version.numericExclusiveBounds then
    [("minimum", facets.minimum.map Json.ofNumber),
     ("maximum", facets.maximum.map Json.ofNumber),
     ("exclusiveMinimum", facets.exclusiveMinimum.map Json.ofNumber),
     ("exclusiveMaximum", facets.exclusiveMaximum.map Json.ofNumber)]
  else
    [("minimum", (facets.exclusiveMinimum.or facets.minimum).map Json.ofNumber),
     ("exclusiveMinimum", facets.exclusiveMinimum.map fun _ => .bool true),
     ("maximum", (facets.exclusiveMaximum.or facets.maximum).map Json.ofNumber),
     ("exclusiveMaximum", facets.exclusiveMaximum.map fun _ => .bool true)]

def exampleEntries (version : Version) (facets : Facets) : List (String × Option Json) :=
  match facets.examples with
  | [] => []
  | first :: rest =>
    if version.examplesArray then [("examples", some (.list (first :: rest)))]
    else [("example", some first)]

def valueEntries (version : Version) (facets : Facets) : List (String × Option Json) :=
  [("format", facets.format.map .text),
   ("description", facets.description.map .text),
   ("summary", facets.summary.map .text),
   ("deprecated", facets.deprecated.map .bool),
   ("default", facets.fallback),
   ("enum", facets.choices.map .list),
   ("pattern", facets.pattern.map .text),
   ("minLength", facets.minLength.map fun size => .integer size),
   ("maxLength", facets.maxLength.map fun size => .integer size)] ++
  facets.boundEntries version

def itemEntries (facets : Facets) : List (String × Option Json) :=
  [("minItems", facets.minItems.map fun size => .integer size),
   ("maxItems", facets.maxItems.map fun size => .integer size),
   ("uniqueItems", facets.uniqueItems.map .bool)]

def requiredEntries (facets : Facets) : List (String × Option Json) :=
  [("required", if facets.required.isEmpty then none else some (Json.texts facets.required))]

def propertyEntries (facets : Facets) : List (String × Option Json) :=
  [("minProperties", facets.minProperties.map fun size => .integer size),
   ("maxProperties", facets.maxProperties.map fun size => .integer size)]

end Facets

/-- A key with a list of alternatives, left out when there are none. -/
def alternatives (key : String) (members : List Json) : String × Option Json :=
  (key, if members.isEmpty then none else some (.list members))

mutual

def Schema.render (version : Version) (schema : Schema) : Json :=
  match schema with
  | .ref name => .object [("$ref", .text (referenceMark ++ name))]
  | .inline object => SchemaObject.render version object

def SchemaObject.render (version : Version) (object : SchemaObject) : Json :=
  match object with
  | { toFacets, items, properties, additional, oneOf, anyOf, allOf } =>
    .object <| Json.ofOptional <|
      toFacets.typeEntries version ++
      toFacets.valueEntries version ++
      [("items", Schema.renderItems version items)] ++
      toFacets.itemEntries ++
      [("properties",
        if properties.isEmpty then none
        else some (.object (Schema.renderProperties version properties)))] ++
      toFacets.requiredEntries ++
      [("additionalProperties", Schema.renderAdditional version additional)] ++
      toFacets.propertyEntries ++
      [alternatives "oneOf" (Schema.renderMembers version oneOf),
       alternatives "anyOf" (Schema.renderMembers version anyOf),
       alternatives "allOf" (Schema.renderMembers version allOf)] ++
      toFacets.exampleEntries version

def Schema.renderItems (version : Version) (items : Option Schema) : Option Json :=
  match items with
  | none => none
  | some schema => some (Schema.render version schema)

def Schema.renderProperties (version : Version) (properties : List (String × Schema)) :
    List (String × Json) :=
  match properties with
  | [] => []
  | (name, schema) :: rest =>
    (name, Schema.render version schema) :: Schema.renderProperties version rest

/-- The JSON form of what holds for properties that are not named. -/
def Schema.renderAdditional (version : Version) (additional : Option Additional) : Option Json :=
  match additional with
  | none => none
  | some (.allowed flag) => some (.bool flag)
  | some (.schema schema) => some (Schema.render version schema)

def Schema.renderMembers (version : Version) (members : List Schema) : List Json :=
  match members with
  | [] => []
  | schema :: rest => Schema.render version schema :: Schema.renderMembers version rest

end

end RouteDocs
