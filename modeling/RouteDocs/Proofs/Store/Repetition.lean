import RouteDocs.Proofs.Store.FieldObjects
import RouteDocs.Proofs.Store.Naming

namespace RouteDocs

/-!
# Registering the same thing twice

What is registered does not depend on the store: fields, an object or a schema
are a fixed sequence of registrations, replayed on whatever store there is.
Replaying the same sequence again finds every name taken.  So it notes one
collision for each registration, those of nested objects included, and it
changes no component and no place, because the last registration of a name has
the last word in both passes.  This needs no assumption on names: a sequence
that overwrites itself comes to the same end each time.
-/

/-- The objects that registering an object stores: those with properties inside
it, at every depth, and then the object itself. -/
def SchemaObject.stored (object : SchemaObject) : List SchemaObject :=
  object.parts.flatMap Schema.namedObjects ++ [object]

theorem SchemaObject.stored_oneEach (object : SchemaObject) (name : String) :
    Registrations.OneEach (object.registrations name ++ [(name, object.lifted name)])
      object.stored :=
  (registrations_oneEach (fun part _ => part.registrations_oneEach) name).append
    (.single name object)

namespace Store

/-- What comes of doing an operation a second time.  The given objects are
those that it stores. -/
structure OnlyCollidesAgain (operation : Store → Schema × Store) (objects : List SchemaObject)
    (store : Store) : Prop where
  schema : (operation (operation store).2).1 = (operation store).1
  /-- The same components under the same names in the same order. -/
  components : (operation (operation store).2).2.components = (operation store).2.components
  /-- The operation makes the same registrations on every store, one for each of
  the objects, and the second time each of them is noted as a collision. -/
  collisions : ∃ registrations : Registrations, registrations.OneEach objects ∧
    (∀ other, (operation other).2 = other.record registrations) ∧
    (operation (operation store).2).2.warnings = (operation store).2.warnings ++
      registrations.map fun entry => .componentCollision entry.1

/-- A replay finds its own names taken. -/
theorem warnings_record_record (store : Store) (registrations : Registrations) :
    ((store.record registrations).record registrations).warnings =
      (store.record registrations).warnings ++
        registrations.map fun entry => .componentCollision entry.1 := by
  have present : ∀ name ∈ Entries.names registrations, name ∈ (store.record registrations).names :=
    fun name member => mem_names_record.mpr (Or.inr member)
  rw [warnings_record (store.record registrations), Entries.colliding_of_present present]

theorem components_record_record (store : Store) (registrations : Registrations) :
    ((store.record registrations).record registrations).components =
      (store.record registrations).components := by
  rw [components_record, components_record, Entries.overlay_overlay_self]

/-- Every operation that replays fixed registrations only collides with itself. -/
theorem onlyCollidesAgain_of_replays {operation : Store → Schema × Store} {schema : Schema}
    {registrations : Registrations} {objects : List SchemaObject}
    (each : registrations.OneEach objects)
    (replays : ∀ store : Store, operation store = (schema, store.record registrations))
    (store : Store) : OnlyCollidesAgain operation objects store where
  schema := by rw [replays, replays]
  components := by simp only [replays, components_record_record]
  collisions := by
    refine ⟨registrations, each, fun other => by rw [replays], ?_⟩
    simp only [replays, warnings_record_record]

/-- Fields are registered like the object that they form. -/
theorem registerObject_eq_registerSchema (store : Store) (name : String)
    (fields : Entries Fragment) (notes : Notes) :
    store.registerObject name fields notes =
      store.registerSchema name (Fragment.object fields notes) := by
  rw [registerObject_eq_record, registerSchema_eq_record, Fragment.registrations]

/-- Registering is idempotent.  Whatever a store holds, registering the same
fields, registering the same object or lifting the same schema a second time
gives the same schema, keeps every component in its place, and notes exactly
one collision for each component that is registered, nested ones included. -/
theorem registering_again_only_collides (store : Store) (name : String) :
    (∀ (fields : Entries Fragment) (notes : Notes),
      OnlyCollidesAgain (fun reached => reached.registerObject name fields notes)
        (Fragment.object fields notes).stored store) ∧
    (∀ object : SchemaObject,
      OnlyCollidesAgain (fun reached => reached.registerSchema name object) object.stored store) ∧
    ∀ schema : Schema, OnlyCollidesAgain (lift schema name) schema.namedObjects store := by
  have registered : ∀ object : SchemaObject,
      OnlyCollidesAgain (fun reached => reached.registerSchema name object) object.stored store :=
    fun object => onlyCollidesAgain_of_replays (object.stored_oneEach name)
      (registerSchema_eq_record name object) store
  refine ⟨?_, registered, ?_⟩
  · intro fields notes
    simp only [registerObject_eq_registerSchema]
    exact registered (Fragment.object fields notes)
  · intro schema
    exact onlyCollidesAgain_of_replays (schema.registrations_oneEach name) (lift_eq schema name)
      store

/-- A person with an address, registered twice. -/
example :
    let fields : Entries Fragment :=
      [("address", { schema := .inline { type := some .object, properties := [("street", default)] }
                     optional := true })]
    ((registerObject {} "Person" fields {}).2.registerObject "Person" fields {}).2.warnings =
      [.componentCollision "Person.address", .componentCollision "Person"] := by
  decide

end Store
end RouteDocs
