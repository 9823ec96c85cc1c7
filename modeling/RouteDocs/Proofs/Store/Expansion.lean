import RouteDocs.Proofs.Store.FieldObjects

namespace RouteDocs

/-!
# Expanding what was lifted

Lifting takes objects out of a schema and leaves references.  Expanding goes
the other way: every reference is replaced by the component of its name, and
the references inside this component in turn.  A store may hold anything, so
expanding is bounded by a depth and may in general never come to an end.

After a lifting without a collision it does end, in the schema that was lifted.
The argument needs only that the store holds each registration of the schema
under its name.  This is where the missing collision enters: a replay that
finds no name taken keeps every one of its registrations, and all of the
earlier components.
-/

namespace Schema

/-- A schema without references at any depth. -/
def ReferenceFree (schema : Schema) : Prop :=
  ∀ target, ¬schema.Mentions target

theorem not_referenceFree_ref (name : String) : ¬(ref name).ReferenceFree := by
  intro free
  exact free name (mentions_ref.mpr rfl)

@[simp] theorem referenceFree_inline {object : SchemaObject} :
    (inline object).ReferenceFree ↔ ∀ part ∈ object.parts, part.ReferenceFree := by
  simp only [ReferenceFree, mentions_inline, SchemaObject.mentions_iff, not_exists, not_and]
  constructor
  · intro free part member target
    exact free target part member
  · intro free target part member
    exact free part member target

end Schema

/-- What holds for properties that are not named, with a function applied to its schema. -/
def Additional.map (function : Schema → Schema) (additional : Additional) : Additional :=
  match additional with
  | .allowed flag => .allowed flag
  | .schema further => .schema (function further)

namespace SchemaObject

/-- The object with a function applied to each of its parts. -/
def mapParts (function : Schema → Schema) (object : SchemaObject) : SchemaObject :=
  { object with
    properties := object.properties.map fun property => (property.1, function property.2)
    items := object.items.map function
    additional := object.additional.map (Additional.map function)
    oneOf := object.oneOf.map function
    anyOf := object.anyOf.map function
    allOf := object.allOf.map function }

/-- A function that undoes the lifting of alternatives one by one undoes it as a whole. -/
theorem map_liftedMembers {function : Schema → Schema} {members : List Schema} {name : String}
    (restores : ∀ placed ∈ Schema.numbered members name 0,
      function (placed.2.lifted placed.1) = placed.2) :
    (Schema.liftedMembers members name).map function = members := by
  rw [Schema.liftedMembers, List.map_map]
  calc
    (Schema.numbered members name 0).map (function ∘ fun placed => placed.2.lifted placed.1) =
        (Schema.numbered members name 0).map Prod.snd := by
      apply List.map_congr_left
      exact restores
    _ = members := Schema.map_snd_numbered members name 0

/-- A function that undoes the lifting of every part undoes that of the object. -/
theorem mapParts_lifted {function : Schema → Schema} {object : SchemaObject} {name : String}
    (restores : ∀ placed ∈ object.placedParts name,
      function (placed.2.lifted placed.1) = placed.2) :
    (object.lifted name).mapParts function = object := by
  rcases object with ⟨facets, items, properties, additional, oneOf, anyOf, allOf⟩
  simp only [placedParts, List.mem_append, or_imp, forall_and, List.forall_mem_map] at restores
  rcases restores with ⟨⟨⟨⟨⟨ofProperties, ofItems⟩, ofFurther⟩, ofOneOf⟩, ofAnyOf⟩, ofAllOf⟩
  have sameProperties : (properties.map fun property =>
      (property.1, property.2.lifted (componentName name property.1))).map
        (fun property => (property.1, function property.2)) = properties := by
    rw [List.map_map]
    calc
      _ = properties.map id := by
        apply List.map_congr_left
        intro property member
        exact congrArg (Prod.mk property.1) (ofProperties property member)
      _ = properties := List.map_id properties
  have sameItems : (items.map fun schema => schema.lifted name).map function = items := by
    cases items with
    | none => rfl
    | some schema => exact congrArg some (ofItems schema (List.mem_singleton.mpr rfl))
  have sameAdditional : (additional.map fun additional => additional.lifted name).map
      (Additional.map function) = additional := by
    rcases additional with _ | (flag | schema)
    · rfl
    · rfl
    · exact congrArg (some ∘ Additional.schema) (ofFurther schema (List.mem_singleton.mpr rfl))
  simp only [mapParts, lifted, sameProperties, sameItems, sameAdditional,
    map_liftedMembers ofOneOf, map_liftedMembers ofAnyOf, map_liftedMembers ofAllOf]

end SchemaObject

namespace Store

/-- Replace references by the components stored under their names, and the
references inside these in turn.  The depth bounds how far down this goes,
through parts as well as through references; below, references stay. -/
def expand (store : Store) (depth : Nat) (schema : Schema) : Schema :=
  match depth, schema with
  | 0, schema => schema
  | depth + 1, .ref name =>
    match store.get? name with
    | some object => store.expand depth (.inline object)
    | none => .ref name
  | depth + 1, .inline object => .inline (object.mapParts (store.expand depth))

/-- Expanding a schema comes to an end, with the given schema. -/
def ExpandsTo (store : Store) (schema expanded : Schema) : Prop :=
  ∃ enough, ∀ depth, enough ≤ depth → store.expand depth schema = expanded

theorem expand_ref {store : Store} {name : String} {object : SchemaObject}
    (held : store.get? name = some object) (depth : Nat) :
    store.expand (depth + 1) (.ref name) = store.expand depth (.inline object) := by
  rw [expand, held]

/-- Every registration can be read under its name. -/
def Holds (store : Store) (registrations : Registrations) : Prop :=
  ∀ entry ∈ registrations, store.get? entry.1 = some entry.2

/-- Expanding undoes the lifting of a schema, once its registrations are held.
The depth must exceed the size of the schema, because a named object takes two
steps, one for its reference and one for its parts. -/
def Restores (store : Store) (schema : Schema) : Prop :=
  ∀ name depth, store.Holds (schema.registrations name) → sizeOf schema < depth →
    store.expand depth (schema.lifted name) = schema

variable {store : Store} {name : String}

theorem Holds.left {first second : Registrations} (holds : store.Holds (first ++ second)) :
    store.Holds first :=
  fun entry member => holds entry (List.mem_append_left second member)

theorem Holds.right {first second : Registrations} (holds : store.Holds (first ++ second)) :
    store.Holds second :=
  fun entry member => holds entry (List.mem_append_right first member)

/-- An object is expanded back when each of its parts is. -/
theorem expand_object {object : SchemaObject}
    (parts : ∀ part ∈ object.parts, store.Restores part)
    (holds : store.Holds (object.registrations name)) {depth : Nat}
    (deep : sizeOf object ≤ depth) :
    store.expand (depth + 1) (.inline (object.lifted name)) = .inline object := by
  rw [expand, SchemaObject.mapParts_lifted]
  intro placed member
  have part := SchemaObject.mem_parts_of_mem_placedParts member
  have smaller := SchemaObject.sizeOf_lt_of_mem_parts part
  apply parts placed.2 part
  · intro entry registered
    exact holds entry (List.mem_flatMap.mpr ⟨placed, member, registered⟩)
  · omega

/-- Expanding undoes the lifting of every schema without references. -/
theorem restores_of_referenceFree {schema : Schema} (free : schema.ReferenceFree) :
    store.Restores schema := by
  induction schema with
  | ref label => exact absurd free (Schema.not_referenceFree_ref label)
  | inline object inductionHypothesis =>
    intro name depth holds deep
    have parts : ∀ part ∈ object.parts, store.Restores part := fun part member =>
      inductionHypothesis part member (Schema.referenceFree_inline.mp free part member)
    rw [Schema.registrations_inline] at holds
    simp only [Schema.inline.sizeOf_spec] at deep
    rw [Schema.lifted_inline]
    split
    · next named =>
      -- The reference is replaced first, then the references inside the component.
      have held : store.get? name = some (object.lifted name) :=
        holds.right (name, object.lifted name) (by rw [if_pos named]; exact List.mem_cons_self)
      rcases Nat.exists_eq_add_of_le' (show 2 ≤ depth by omega) with ⟨rest, rfl⟩
      rw [expand_ref held]
      exact expand_object parts holds.left (by omega)
    · rcases Nat.exists_eq_add_of_le' (show 1 ≤ depth by omega) with ⟨rest, rfl⟩
      exact expand_object parts holds.left (by omega)

/-- A replay without a collision holds all of its registrations. -/
theorem holds_record {registrations : Registrations}
    (silent : (store.record registrations).warnings = store.warnings) :
    (store.record registrations).Holds registrations :=
  fun _ registered => get?_record_of_registered silent registered

/-- Lifting preserves meaning.  A lifting without a collision only adds to the
store, and expanding what it leaves gives the schema back.  The same holds of
fields that are registered under a name: expanding the reference gives the
object with the schemas of the fields as its properties. -/
theorem lifting_is_undone_by_expanding (store : Store) (name : String) :
    (∀ schema : Schema, schema.ReferenceFree →
      (lift schema name store).2.warnings = store.warnings →
        store.components <+: (lift schema name store).2.components ∧
        (lift schema name store).2.ExpandsTo (lift schema name store).1 schema) ∧
    (∀ (fields : Entries Fragment) (notes : Notes),
      (∀ field ∈ fields, field.2.schema.ReferenceFree) →
      (store.registerObject name fields notes).2.warnings = store.warnings →
        store.components <+: (store.registerObject name fields notes).2.components ∧
        (store.registerObject name fields notes).2.ExpandsTo
          (store.registerObject name fields notes).1
          (.inline
            { type := some .object
              properties := fields.map fun field => (field.1, field.2.schema)
              required := (fields.filter fun field => !field.2.optional).map Prod.fst
              description := notes.description
              summary := notes.summary
              deprecated := notes.deprecated })) := by
  constructor
  · intro schema free silent
    rw [lift_eq] at silent ⊢
    rw [components_record_of_silent silent]
    refine ⟨List.prefix_append _ _, sizeOf schema + 1, fun depth deep => ?_⟩
    exact restores_of_referenceFree free name depth (holds_record silent) deep
  · intro fields notes free silent
    rw [registerObject_eq_record] at silent ⊢
    rw [components_record_of_silent silent]
    have holds := holds_record silent
    have held := holds.right (name, (Fragment.object fields notes).lifted name) List.mem_cons_self
    have parts : ∀ part ∈ (Fragment.object fields notes).parts,
        (store.record (Fragment.registrations fields notes name)).Restores part := by
      intro part member
      rw [Fragment.parts_object] at member
      rcases List.mem_map.mp member with ⟨field, given, rfl⟩
      exact restores_of_referenceFree (free field given)
    refine ⟨List.prefix_append _ _, sizeOf (Fragment.object fields notes) + 2, fun depth deep => ?_⟩
    rcases Nat.exists_eq_add_of_le' (show 2 ≤ depth by omega) with ⟨rest, rfl⟩
    rw [expand_ref held]
    exact expand_object parts holds.left (by omega)

end Store

/-! ## A person with addresses -/

namespace Schema

def address : Schema :=
  .inline { type := some .object, properties := [("street", .typed .string)] }

def person : Schema :=
  .inline
    { type := some .object
      properties :=
        [("address", .address), ("previous", .inline { type := some .array, items := some .address })] }

theorem referenceFree_address : address.ReferenceFree := by
  simp [address, typed, SchemaObject.typed, SchemaObject.parts, SchemaObject.further?]

theorem referenceFree_person : person.ReferenceFree := by
  simp [person, referenceFree_address, SchemaObject.parts, SchemaObject.further?]

end Schema

namespace Store

/-- A person with an address of their own and a list of earlier ones: both are
stored, under names of their own, and come back. -/
theorem lifting_is_undone_by_expanding_person :
    (lift .person "User" {}).2.names = ["User.address", "User.previous", "User"] ∧
    (lift .person "User" {}).2.ExpandsTo (.ref "User") .person ∧
    (registerObject {} "User" [("address", ⟨.address, true⟩)] {}).2.ExpandsTo (.ref "User")
      (.inline { type := some .object, properties := [("address", .address)] }) := by
  have undone := lifting_is_undone_by_expanding {} "User"
  refine ⟨rfl, (undone.1 .person Schema.referenceFree_person rfl).2, ?_⟩
  refine (undone.2 [("address", ⟨.address, true⟩)] {} (fun field member => ?_) rfl).2
  cases List.mem_singleton.mp member
  exact Schema.referenceFree_address

end Store
end RouteDocs
