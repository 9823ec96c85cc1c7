import RouteDocs.Schema.Render
import RouteDocs.Warning

namespace RouteDocs

/-!
# The component store

Schemas that are used by name are kept in a store, in the order in which their
names first arrived.  Storing under a taken name replaces the schema and is
noted as a collision.
-/

/-- Named schemas, and what was noticed while they were stored. -/
structure Store where
  components : Entries SchemaObject := []
  warnings : List Warning := []

namespace Store

instance : Inhabited Store := ⟨{}⟩

def names (store : Store) : List String :=
  store.components.names

def get? (store : Store) (name : String) : Option SchemaObject :=
  store.components.get? name

def insert (store : Store) (name : String) (object : SchemaObject) : Store where
  components := store.components.put name object
  warnings :=
    if store.components.has name then store.warnings ++ [.componentCollision name]
    else store.warnings

/-- The object that a schema stands for. -/
def resolve (store : Store) (schema : Schema) : Except Fault SchemaObject :=
  match schema with
  | .inline object => .ok object
  | .ref name =>
    match store.get? name with
    | some object => .ok object
    | none => .error (.unresolvedReference name)

/-- Take over everything from another store: its warnings first, then its
components one by one. -/
def absorb (store other : Store) : Store :=
  other.components.foldl (fun merged entry => merged.insert entry.1 entry.2)
    { store with warnings := store.warnings ++ other.warnings }

def retain (store : Store) (keep : String -> SchemaObject -> Bool) : Store :=
  { store with components := store.components.filter fun entry => keep entry.1 entry.2 }

def withoutWarnings (store : Store) : Store :=
  { store with warnings := [] }

def render (version : Version) (store : Store) : Entries Json :=
  store.components.mapValues (SchemaObject.render version)

end Store
end RouteDocs
