import RouteDocs.Schema.Basic

namespace RouteDocs

/-!
# When two schemas are the same

Two schemas are the same when they agree in every facet and every part, up to
the order of properties and of the keys inside values.  The order of required
names, of items, of examples and of alternatives counts.
-/

/-- Whether optional values are both absent, or both present and the same. -/
def sameOptional {α : Type} (same : α -> α -> Bool) (left right : Option α) : Bool :=
  match left, right with
  | none, none => true
  | some first, some second => same first second
  | _, _ => false

/-- Whether two schemas agree in every facet. -/
def Facets.same (left right : Facets) : Bool :=
  left.type == right.type && left.format == right.format &&
  left.description == right.description && left.summary == right.summary &&
  left.deprecated == right.deprecated && left.nullable == right.nullable &&
  sameOptional Json.same left.fallback right.fallback &&
  Json.sameItems left.examples right.examples &&
  sameOptional Json.sameItems left.choices right.choices &&
  left.pattern == right.pattern && left.minLength == right.minLength &&
  left.maxLength == right.maxLength &&
  sameOptional (fun first second => first == second) left.minimum right.minimum &&
  sameOptional (fun first second => first == second) left.maximum right.maximum &&
  sameOptional (fun first second => first == second) left.exclusiveMinimum right.exclusiveMinimum &&
  sameOptional (fun first second => first == second) left.exclusiveMaximum right.exclusiveMaximum &&
  left.minItems == right.minItems && left.maxItems == right.maxItems &&
  left.uniqueItems == right.uniqueItems && left.required == right.required &&
  left.minProperties == right.minProperties && left.maxProperties == right.maxProperties

mutual

def Schema.same (left right : Schema) : Bool :=
  match left, right with
  | .ref first, .ref second => first == second
  | .inline first, .inline second => SchemaObject.same first second
  | _, _ => false

def SchemaObject.same (left right : SchemaObject) : Bool :=
  match left with
  | { toFacets, items, properties, additional, oneOf, anyOf, allOf } =>
    toFacets.same right.toFacets &&
    Schema.sameItems items right.items &&
    properties.length == right.properties.length &&
    Schema.sameProperties properties right.properties &&
    Schema.sameAdditional additional right.additional &&
    Schema.sameMembers oneOf right.oneOf &&
    Schema.sameMembers anyOf right.anyOf &&
    Schema.sameMembers allOf right.allOf

def Schema.sameItems (left right : Option Schema) : Bool :=
  match left, right with
  | none, none => true
  | some first, some second => Schema.same first second
  | _, _ => false

/-- Whether every property on the left is the same on the right. -/
def Schema.sameProperties (left right : List (String × Schema)) : Bool :=
  match left with
  | [] => true
  | (name, schema) :: rest =>
    (match Entries.get? right name with
      | some other => Schema.same schema other
      | none => false) && Schema.sameProperties rest right

/-- Whether the same holds for properties that are not named. -/
def Schema.sameAdditional (left right : Option Additional) : Bool :=
  match left, right with
  | none, none => true
  | some (.allowed first), some (.allowed second) => first == second
  | some (.schema first), some (.schema second) => Schema.same first second
  | _, _ => false

def Schema.sameMembers (left right : List Schema) : Bool :=
  match left, right with
  | [], [] => true
  | first :: left, second :: right => Schema.same first second && Schema.sameMembers left right
  | _, _ => false

end

end RouteDocs
