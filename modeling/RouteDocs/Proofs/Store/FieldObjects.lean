import RouteDocs.Proofs.Store.Lifting

namespace RouteDocs

/-!
# Objects made of fields

Fields that are registered under a name become one object.  `Fragment.object`
is this object before anything inside it is lifted.  Registering the fields
registers what lifting the parts of the object registers, and then the object
itself, also where there is no field at all.
-/

/-- The inline object that becomes the component of fields. -/
def Fragment.object (fields : Entries Fragment) (notes : Notes) : SchemaObject :=
  { type := some .object
    description := notes.description
    summary := notes.summary
    deprecated := notes.deprecated
    properties := Fragment.schemas fields
    required := Fragment.requiredNames fields }

theorem Fragment.names_schemas (fields : Entries Fragment) :
    (Fragment.schemas fields).names = fields.names := by
  rw [Fragment.schemas, Entries.mapValues, Entries.names, List.map_map]
  rfl

theorem Fragment.isNamedObject_object {fields : Entries Fragment} (notes : Notes)
    (some : fields.isEmpty = false) : (Fragment.object fields notes).isNamedObject = true := by
  cases fields with
  | nil => cases some
  | cons field rest => rfl

theorem Fragment.placedParts_object (fields : Entries Fragment) (notes : Notes) (name : String) :
    (Fragment.object fields notes).placedParts name =
      fields.map fun field => (componentName name field.1, field.2.schema) := by
  simp only [SchemaObject.placedParts, Fragment.object, SchemaObject.further?, Fragment.schemas,
    Entries.mapValues, Schema.numbered, List.zipIdx_nil, List.map_nil, Option.toList_none,
    List.append_nil, List.map_map, Function.comp_def]

theorem Fragment.parts_object (fields : Entries Fragment) (notes : Notes) :
    (Fragment.object fields notes).parts = fields.map fun field => field.2.schema := by
  rw [← SchemaObject.map_snd_placedParts _ "", placedParts_object, List.map_map]
  rfl

/-- What holds everywhere in fields and of their object holds everywhere in the object. -/
theorem Fragment.everywhere_object {condition : SchemaObject → Prop} {fields : Entries Fragment}
    {notes : Notes} (own : condition (Fragment.object fields notes))
    (inside : ∀ field ∈ fields, field.2.schema.Everywhere condition) :
    (Schema.inline (Fragment.object fields notes)).Everywhere condition := by
  rw [Schema.everywhere_inline, parts_object]
  refine ⟨own, fun part member => ?_⟩
  rcases List.mem_map.mp member with ⟨field, given, rfl⟩
  exact inside field given

/-- What registering fields under a name registers. -/
def Fragment.registrations (fields : Entries Fragment) (notes : Notes) (name : String) :
    Registrations :=
  (Fragment.object fields notes).registrations name ++
    [(name, (Fragment.object fields notes).lifted name)]

namespace Store

theorem registerObject_eq_record (fields : Entries Fragment) (notes : Notes) (name : String)
    (store : Store) :
    store.registerObject name fields notes =
      (.ref name, store.record (Fragment.registrations fields notes name)) := by
  have unfolded : store.registerObject name fields notes =
      (.ref name, (liftParts (Fragment.object fields notes) name store).2.insert name
        (liftParts (Fragment.object fields notes) name store).1) := rfl
  rw [unfolded, liftParts_eq, Fragment.registrations, record_append, record_cons, record_nil]

/-- Registering at least one field is lifting the object with these fields. -/
theorem registerObject_eq {fields : Entries Fragment} (some : fields.isEmpty = false)
    (notes : Notes) (name : String) (store : Store) :
    store.registerObject name fields notes =
      (.ref name,
        store.record ((Schema.inline (Fragment.object fields notes)).registrations name)) := by
  rw [registerObject_eq_record, Schema.registrations_inline,
    if_pos (Fragment.isNamedObject_object notes some), Fragment.registrations]

/-- An object with properties is found under its name, with its parts lifted. -/
theorem get?_record_named {object : SchemaObject} (named : object.isNamedObject = true)
    (name : String) (store : Store) :
    (store.record ((Schema.inline object).registrations name)).get? name =
      .some (object.lifted name) := by
  rw [Schema.registrations_inline, if_pos named, record_append, record_cons, record_nil,
    get?_insert, if_pos rfl]

theorem get?_record_object {fields : Entries Fragment} (some : fields.isEmpty = false)
    (notes : Notes) (name : String) (store : Store) :
    (store.record ((Schema.inline (Fragment.object fields notes)).registrations name)).get? name =
      .some ((Fragment.object fields notes).lifted name) :=
  get?_record_named (Fragment.isNamedObject_object notes some) name store

end Store
end RouteDocs
