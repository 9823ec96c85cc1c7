import RouteDocs.Convert.Basic
import RouteDocs.Store.Basic

namespace RouteDocs

/-!
# Lifting nested objects into the store

An object that names properties is stored as a component wherever it stands
inside a schema, and a reference takes its place.  Its name is that of the
component around it, followed by a point and the property or the number of the
alternative it stands in.  Items and further properties add nothing to the name.
The objects inside an object are stored before it.
-/

/-- The name of a component inside another. -/
def componentName (parent part : String) : String :=
  parent ++ "." ++ part

namespace Store

mutual

/-- Replace every object with properties by a reference, the schema itself included. -/
def lift (schema : Schema) (name : String) (store : Store) : Schema × Store :=
  match schema with
  | .ref target => (.ref target, store)
  | .inline object =>
    let (lifted, filled) := liftParts object name store
    if object.isNamedObject then (.ref name, filled.insert name lifted)
    else (.inline lifted, filled)

/-- Replace the objects with properties inside an object. -/
def liftParts (object : SchemaObject) (name : String) (store : Store) : SchemaObject × Store :=
  match object with
  | { toFacets, items, properties, additional, oneOf, anyOf, allOf } =>
    let (properties, store) := liftProperties properties name store
    let (items, store) := liftItems items name store
    let (additional, store) := liftAdditional additional name store
    let (oneOf, store) := liftMembers oneOf name 0 store
    let (anyOf, store) := liftMembers anyOf name 0 store
    let (allOf, store) := liftMembers allOf name 0 store
    ({ toFacets, items, properties, additional, oneOf, anyOf, allOf }, store)

/-- Replace the objects in properties; each is named after its property. -/
def liftProperties (properties : List (String × Schema)) (name : String) (store : Store) :
    List (String × Schema) × Store :=
  match properties with
  | [] => ([], store)
  | (property, schema) :: rest =>
    let (lifted, store) := lift schema (componentName name property) store
    let (others, store) := liftProperties rest name store
    ((property, lifted) :: others, store)

def liftItems (items : Option Schema) (name : String) (store : Store) : Option Schema × Store :=
  match items with
  | none => (none, store)
  | some schema =>
    let (lifted, store) := lift schema name store
    (some lifted, store)

/-- Replace the objects in what holds for properties that are not named. -/
def liftAdditional (additional : Option Additional) (name : String) (store : Store) :
    Option Additional × Store :=
  match additional with
  | none => (none, store)
  | some (.allowed flag) => (some (.allowed flag), store)
  | some (.schema schema) =>
    let (lifted, store) := lift schema name store
    (some (.schema lifted), store)

/-- Replace the objects in alternatives; each is named after its number. -/
def liftMembers (members : List Schema) (name : String) (number : Nat) (store : Store) :
    List Schema × Store :=
  match members with
  | [] => ([], store)
  | schema :: rest =>
    let (lifted, store) := lift schema (componentName name (toString number)) store
    let (others, store) := liftMembers rest name (number + 1) store
    (lifted :: others, store)

end

/-- Store an object under a name, with the objects inside it under theirs. -/
def registerSchema (store : Store) (name : String) (object : SchemaObject) : Schema × Store :=
  let (lifted, filled) := liftParts object name store
  (.ref name, filled.insert name lifted)

/-- Store the object with the given fields under a name. -/
def registerObject (store : Store) (name : String) (fields : Entries Fragment) (notes : Notes) :
    Schema × Store :=
  let (properties, filled) := liftProperties (Fragment.schemas fields) name store
  let object : SchemaObject :=
    { type := some .object
      description := notes.description
      summary := notes.summary
      deprecated := notes.deprecated
      properties := properties
      required := Fragment.requiredNames fields }
  (.ref name, filled.insert name object)

end Store
end RouteDocs
