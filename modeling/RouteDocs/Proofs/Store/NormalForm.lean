import Mathlib.Logic.Function.Basic
import RouteDocs.Proofs.Store.Expansion
import RouteDocs.Proofs.Store.Naming

namespace RouteDocs

/-!
# Stored components are flat

A schema is flat when no object that names properties is written out in it, at
any depth.  Lifting makes schemas flat: what it leaves is flat, and so is
everything inside the objects that it stores.  A stored object itself may name
properties, which is why it is stored.

A flat schema has nothing to lift, so lifting it again changes neither the
schema nor the store.  No way to fill a store puts anything else into it, so
after any sequence of commands every component is flat inside.  Nothing is said
of references: a flat schema may refer to a component that has been removed.
-/

/-- No object that names properties is written out in the schema, the schema itself included. -/
def Schema.Flat (schema : Schema) : Prop :=
  ∀ object, .inline object ∈ schema.subschemas → object.isNamedObject = false

/-- No object that names properties is written out strictly inside the object. -/
def SchemaObject.FlatInside (object : SchemaObject) : Prop :=
  ∀ inner, .inline inner ∈ object.subschemas → inner.isNamedObject = false

theorem SchemaObject.flatInside_iff {object : SchemaObject} :
    object.FlatInside ↔ ∀ part ∈ object.parts, part.Flat := by
  simp only [FlatInside, subschemas, List.mem_flatMap, forall_exists_index, and_imp, Schema.Flat]
  constructor
  · intro flat part member inner inside
    exact flat inner part member inside
  · intro flat inner part member inside
    exact flat part member inner inside

namespace Schema

theorem flat_ref (name : String) : (ref name).Flat := by
  intro object inside
  rw [subschemas_ref, List.mem_singleton] at inside
  cases inside

theorem flat_inline {object : SchemaObject} :
    (inline object).Flat ↔ object.isNamedObject = false ∧ object.FlatInside := by
  simp only [Flat, subschemas_inline, List.mem_cons, inline.injEq, SchemaObject.FlatInside,
    SchemaObject.subschemas]
  constructor
  · intro flat
    exact ⟨flat object (Or.inl rfl), fun inner inside => flat inner (Or.inr inside)⟩
  · rintro ⟨own, flat⟩ inner (rfl | inside)
    · exact own
    · exact flat inner inside

end Schema

/-! ## Lifting makes schemas flat -/

/-- Lifting the parts of an object takes no property away and adds none. -/
theorem SchemaObject.isNamedObject_lifted (object : SchemaObject) (name : String) :
    (object.lifted name).isNamedObject = object.isNamedObject := by
  simp only [isNamedObject, isObject, lifted, List.isEmpty_map]

namespace Schema

theorem flat_lifted (schema : Schema) (name : String) : (schema.lifted name).Flat := by
  induction schema generalizing name with
  | ref target => exact flat_ref target
  | inline object inductionHypothesis =>
    rw [lifted_inline]
    split
    · exact flat_ref name
    · next unnamed =>
      refine flat_inline.mpr ⟨?_, SchemaObject.flatInside_iff.mpr fun part member => ?_⟩
      · rw [SchemaObject.isNamedObject_lifted]
        exact Bool.eq_false_iff.mpr unnamed
      · rw [SchemaObject.parts_lifted] at member
        rcases List.mem_map.mp member with ⟨placed, listed, rfl⟩
        exact inductionHypothesis placed.2 (SchemaObject.mem_parts_of_mem_placedParts listed)
          placed.1

end Schema

theorem SchemaObject.flatInside_lifted (object : SchemaObject) (name : String) :
    (object.lifted name).FlatInside := by
  rw [flatInside_iff, parts_lifted]
  intro part member
  rcases List.mem_map.mp member with ⟨placed, _, rfl⟩
  exact placed.2.flat_lifted placed.1

/-- Registrations of objects that are flat inside. -/
def Registrations.Flat (registrations : Registrations) : Prop :=
  ∀ entry ∈ registrations, entry.2.FlatInside

namespace Registrations

theorem Flat.append {first second : Registrations} (flatFirst : first.Flat)
    (flatSecond : second.Flat) : Flat (first ++ second) :=
  fun entry member => (List.mem_append.mp member).elim (flatFirst entry) (flatSecond entry)

theorem flat_single {object : SchemaObject} (flat : object.FlatInside) (name : String) :
    Flat [(name, object)] := by
  intro entry member
  rw [List.mem_singleton.mp member]
  exact flat

/-- What is registered one for each object has been lifted before. -/
theorem OneEach.flat {registrations : Registrations} {objects : List SchemaObject}
    (each : registrations.OneEach objects) : registrations.Flat := by
  rcases each with ⟨placed, -, same⟩
  intro entry member
  rcases List.mem_map.mp (same.mem_iff.mp member) with ⟨source, _, rfl⟩
  exact source.2.flatInside_lifted source.1

end Registrations

theorem SchemaObject.registrations_flat (object : SchemaObject) (name : String) :
    (object.registrations name).Flat :=
  (registrations_oneEach (fun part _ => part.registrations_oneEach) name).flat

/-! ## A flat schema has nothing to lift -/

theorem SchemaObject.mapParts_id (object : SchemaObject) : object.mapParts id = object := by
  have same : Additional.map id = id := by
    funext additional
    cases additional <;> rfl
  rcases object with ⟨facets, items, properties, additional, oneOf, anyOf, allOf⟩
  simp only [mapParts, same, id_eq, List.map_id', List.map_id, Option.map_id]

/-- An object whose parts lifting leaves alone is left alone. -/
theorem SchemaObject.lifted_eq_self {object : SchemaObject} {name : String}
    (parts : ∀ placed ∈ object.placedParts name, placed.2.lifted placed.1 = placed.2) :
    object.lifted name = object := by
  rw [← (object.lifted name).mapParts_id]
  exact mapParts_lifted parts

namespace Schema

variable {schema : Schema}

theorem Flat.lifted_eq_self (flat : schema.Flat) (name : String) : schema.lifted name = schema := by
  induction schema generalizing name with
  | ref target => rfl
  | inline object inductionHypothesis =>
    rcases flat_inline.mp flat with ⟨unnamed, inside⟩
    rw [SchemaObject.flatInside_iff] at inside
    rw [lifted_inline, unnamed, if_neg Bool.false_ne_true]
    refine congrArg inline (SchemaObject.lifted_eq_self fun placed listed => ?_)
    have member := SchemaObject.mem_parts_of_mem_placedParts listed
    exact inductionHypothesis placed.2 member (inside placed.2 member) placed.1

theorem Flat.registrations_eq_nil (flat : schema.Flat) (name : String) :
    schema.registrations name = [] := by
  induction schema generalizing name with
  | ref target => exact registrations_ref target name
  | inline object inductionHypothesis =>
    rcases flat_inline.mp flat with ⟨unnamed, inside⟩
    rw [SchemaObject.flatInside_iff] at inside
    rw [registrations_inline, unnamed, if_neg Bool.false_ne_true, List.append_nil,
      SchemaObject.registrations, registrationsOf, List.flatMap_eq_nil_iff]
    intro placed listed
    have member := SchemaObject.mem_parts_of_mem_placedParts listed
    exact inductionHypothesis placed.2 member (inside placed.2 member) placed.1

end Schema

namespace Store

/-- Lifting a flat schema changes nothing. -/
theorem lift_of_flat {schema : Schema} (flat : schema.Flat) (name : String) (store : Store) :
    lift schema name store = (schema, store) := by
  rw [lift_eq, flat.lifted_eq_self, flat.registrations_eq_nil, record_nil]

/-! ## Stores of flat components -/

/-- Every component of the store is flat inside. -/
def Flat (store : Store) : Prop :=
  Registrations.Flat store.components

theorem flat_empty : Flat {} :=
  fun _ impossible => absurd impossible List.not_mem_nil

variable {store : Store}

theorem Flat.record (flat : store.Flat) {registrations : Registrations}
    (registered : registrations.Flat) : (store.record registrations).Flat := by
  intro entry member
  rcases mem_components_record member with new | known
  · exact registered entry new
  · exact flat entry known

theorem Flat.lift (flat : store.Flat) (schema : Schema) (name : String) :
    (lift schema name store).2.Flat := by
  rw [lift_eq]
  exact flat.record (schema.registrations_oneEach name).flat

theorem flat_objectRegistrations (object : SchemaObject) (name : String) :
    Registrations.Flat (object.registrations name ++ [(name, object.lifted name)]) :=
  (object.registrations_flat name).append
    (Registrations.flat_single (object.flatInside_lifted name) name)

theorem Flat.registerSchema (flat : store.Flat) (name : String) (object : SchemaObject) :
    (store.registerSchema name object).2.Flat := by
  rw [registerSchema_eq_record]
  exact flat.record (flat_objectRegistrations object name)

theorem Flat.registerObject (flat : store.Flat) (name : String) (fields : Entries Fragment)
    (notes : Notes) : (store.registerObject name fields notes).2.Flat := by
  rw [registerObject_eq_record]
  exact flat.record (flat_objectRegistrations (Fragment.object fields notes) name)

theorem Flat.absorb (flat : store.Flat) {other : Store} (absorbed : other.Flat) :
    (store.absorb other).Flat := by
  rw [absorb_eq_record]
  have noted : Flat { store with warnings := store.warnings ++ other.warnings } := flat
  exact noted.record absorbed

theorem Flat.retain (flat : store.Flat) (keep : String → SchemaObject → Bool) :
    (store.retain keep).Flat :=
  fun entry member => flat entry (List.mem_filter.mp member).1

end Store

/-! ## Any number of stores -/

/-- What can be done with stores, which are told apart by numbers. -/
inductive StoreCommand where
  | registerObject (target : Nat) (name : String) (fields : Entries Fragment) (notes : Notes)
  | registerSchema (target : Nat) (name : String) (object : SchemaObject)
  | lift (target : Nat) (schema : Schema) (name : String)
  /-- Take everything out of the source and into the target. -/
  | absorb (target source : Nat)
  | retain (target : Nat) (keep : String → SchemaObject → Bool)
  | clear (target : Nat)

namespace StoreCommand

def perform (command : StoreCommand) (stores : Nat → Store) : Nat → Store :=
  match command with
  | .registerObject target name fields notes =>
    Function.update stores target ((stores target).registerObject name fields notes).2
  | .registerSchema target name object =>
    Function.update stores target ((stores target).registerSchema name object).2
  | .lift target schema name =>
    Function.update stores target (Store.lift schema name (stores target)).2
  | .absorb target source =>
    Function.update (Function.update stores source {}) target
      ((stores target).absorb (stores source))
  | .retain target keep => Function.update stores target ((stores target).retain keep)
  | .clear target => Function.update stores target {}

def performAll (commands : List StoreCommand) (stores : Nat → Store) : Nat → Store :=
  commands.foldl (fun reached command => command.perform reached) stores

theorem flat_update {stores : Nat → Store} (flat : ∀ number, (stores number).Flat) {store : Store}
    (changed : store.Flat) (target number : Nat) :
    (Function.update stores target store number).Flat := by
  rw [Function.update_apply]
  split
  · exact changed
  · exact flat number

theorem perform_flat (command : StoreCommand) {stores : Nat → Store}
    (flat : ∀ number, (stores number).Flat) (number : Nat) :
    (command.perform stores number).Flat := by
  cases command with
  | registerObject target name fields notes =>
    exact flat_update flat ((flat target).registerObject name fields notes) target number
  | registerSchema target name object =>
    exact flat_update flat ((flat target).registerSchema name object) target number
  | lift target schema name => exact flat_update flat ((flat target).lift schema name) target number
  | absorb target source =>
    have emptied := flat_update flat Store.flat_empty source
    exact flat_update emptied ((flat target).absorb (flat source)) target number
  | retain target keep => exact flat_update flat ((flat target).retain keep) target number
  | clear target => exact flat_update flat Store.flat_empty target number

theorem performAll_flat (commands : List StoreCommand) {stores : Nat → Store}
    (flat : ∀ number, (stores number).Flat) (number : Nat) :
    (performAll commands stores number).Flat := by
  induction commands generalizing stores with
  | nil => exact flat number
  | cons command rest inductionHypothesis => exact inductionHypothesis (command.perform_flat flat)

/-- Whatever is done with stores that are empty at first, no component of any of
them has an object with properties written out strictly inside it.  A lifted
schema has none at all, so lifting it once more, under any name and into any
store, gives the same schema and the same store. -/
theorem lifting_reaches_normal_form (commands : List StoreCommand) :
    (∀ number, ∀ entry ∈ (performAll commands (fun _ => {}) number).components,
      entry.2.FlatInside) ∧
    ∀ (schema : Schema) (name : String) (store : Store),
      (Store.lift schema name store).1.Flat ∧
      ∀ (again : String) (other : Store),
        Store.lift (Store.lift schema name store).1 again other =
          ((Store.lift schema name store).1, other) := by
  constructor
  · exact performAll_flat commands fun _ => Store.flat_empty
  · intro schema name store
    have flat : (Store.lift schema name store).1.Flat := by
      rw [Store.lift_eq]
      exact schema.flat_lifted name
    exact ⟨flat, Store.lift_of_flat flat⟩

end StoreCommand
end RouteDocs
