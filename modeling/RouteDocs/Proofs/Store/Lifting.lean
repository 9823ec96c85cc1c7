import RouteDocs.Proofs.Schema.Parts
import RouteDocs.Proofs.Store.Record
import RouteDocs.Store.Lift

namespace RouteDocs

/-!
# What lifting stores

Lifting threads a store through a whole schema, but it never reads the store.
Hence its effect splits in two: the schema that is left, which is the same for
every store, and the registrations, which are replayed on whatever store there
is.  `Schema.registrations` lists them in order, the parts of an object before
the object itself, and `Store.lift_eq` says that lifting is exactly this replay.
-/

namespace Schema

def lifted (schema : Schema) (name : String) : Schema :=
  (Store.lift schema name {}).1

/-- Alternatives with the names they are lifted under. -/
def numbered (members : List Schema) (name : String) (number : Nat) : List (String × Schema) :=
  (members.zipIdx number).map fun member => (componentName name (toString member.2), member.1)

theorem numbered_cons (first : Schema) (rest : List Schema) (name : String) (number : Nat) :
    numbered (first :: rest) name number =
      (componentName name (toString number), first) :: numbered rest name (number + 1) := rfl

theorem map_snd_numbered (members : List Schema) (name : String) (number : Nat) :
    (numbered members name number).map Prod.snd = members := by
  induction members generalizing number with
  | nil => rfl
  | cons first rest inductionHypothesis =>
    rw [numbered_cons, List.map_cons, inductionHypothesis]

def liftedMembers (members : List Schema) (name : String) : List Schema :=
  (numbered members name 0).map fun placed => placed.2.lifted placed.1

end Schema

/-- What holds for properties that are not named, as lifting leaves it. -/
def Additional.lifted (additional : Additional) (name : String) : Additional :=
  match additional with
  | .allowed flag => .allowed flag
  | .schema further => .schema (further.lifted name)

namespace SchemaObject

/-- The object that lifting leaves of an object: the same facets around lifted parts. -/
def lifted (object : SchemaObject) (name : String) : SchemaObject :=
  { object with
    properties := object.properties.map fun property =>
      (property.1, property.2.lifted (componentName name property.1))
    items := object.items.map fun schema => schema.lifted name
    additional := object.additional.map fun additional => additional.lifted name
    oneOf := Schema.liftedMembers object.oneOf name
    anyOf := Schema.liftedMembers object.anyOf name
    allOf := Schema.liftedMembers object.allOf name }

/-- The parts of an object with the names they are lifted under. -/
def placedParts (object : SchemaObject) (name : String) : List (String × Schema) :=
  object.properties.map (fun property => (componentName name property.1, property.2)) ++
    object.items.toList.map (fun part => (name, part)) ++
    object.further?.toList.map (fun part => (name, part)) ++
    Schema.numbered object.oneOf name 0 ++ Schema.numbered object.anyOf name 0 ++
    Schema.numbered object.allOf name 0

theorem map_snd_placedParts (object : SchemaObject) (name : String) :
    (object.placedParts name).map Prod.snd = object.parts := by
  simp only [placedParts, parts, List.map_append, List.map_map, Schema.map_snd_numbered,
    Function.comp_def, List.map_id']

theorem mem_parts_of_mem_placedParts {object : SchemaObject} {name : String}
    {placed : String × Schema} (member : placed ∈ object.placedParts name) :
    placed.2 ∈ object.parts := by
  rw [← object.map_snd_placedParts name]
  exact List.mem_map_of_mem member

end SchemaObject

/-- What lifting a schema registers, in order. -/
def Schema.registrations (schema : Schema) (name : String) : Registrations :=
  match schema with
  | .ref _ => []
  | .inline object =>
    ((object.placedParts name).attach.flatMap fun placed =>
      registrations placed.1.2 placed.1.1) ++
      if object.isNamedObject then [(name, object.lifted name)] else []
termination_by sizeOf schema
decreasing_by
  have member := SchemaObject.mem_parts_of_mem_placedParts placed.2
  have smaller := SchemaObject.sizeOf_lt_of_mem_parts member
  simp only [Schema.inline.sizeOf_spec]
  omega

/-- What lifting named schemas one after the other registers. -/
def Schema.registrationsOf (placed : List (String × Schema)) : Registrations :=
  placed.flatMap fun entry => entry.2.registrations entry.1

def SchemaObject.registrations (object : SchemaObject) (name : String) : Registrations :=
  Schema.registrationsOf (object.placedParts name)

namespace Schema

@[simp] theorem registrations_ref (target name : String) :
    (ref target).registrations name = [] := by
  rw [registrations]

theorem registrations_inline (object : SchemaObject) (name : String) :
    (inline object).registrations name =
      object.registrations name ++
        if object.isNamedObject then [(name, object.lifted name)] else [] := by
  rw [registrations]
  simp only [List.flatMap_subtype, List.unattach_attach, SchemaObject.registrations,
    registrationsOf]

@[simp] theorem registrationsOf_nil : registrationsOf [] = [] := rfl

@[simp] theorem registrationsOf_cons (entry : String × Schema) (rest : List (String × Schema)) :
    registrationsOf (entry :: rest) = entry.2.registrations entry.1 ++ registrationsOf rest := rfl

@[simp] theorem registrationsOf_append (first second : List (String × Schema)) :
    registrationsOf (first ++ second) = registrationsOf first ++ registrationsOf second :=
  List.flatMap_append

theorem registrationsOf_flatMap {α : Type} (items : List α)
    (placed : α → List (String × Schema)) :
    registrationsOf (items.flatMap placed) =
      items.flatMap fun item => registrationsOf (placed item) :=
  List.flatMap_assoc

/-- Lifting a schema is a replay of its registrations, on every store. -/
def LiftsByReplay (schema : Schema) : Prop :=
  ∀ (name : String) (store : Store),
    Store.lift schema name store = (schema.lifted name, store.record (schema.registrations name))

end Schema

namespace Store

/-! ## The recursion of lifting, keyword by keyword

The lemmas of this section assume that the parts lift by replay.  They serve
the induction in `lift_eq` and are without the assumption afterwards. -/

private theorem liftProperties_replays {properties : List (String × Schema)}
    (parts : ∀ property ∈ properties, property.2.LiftsByReplay) (name : String) (store : Store) :
    liftProperties properties name store =
      (properties.map fun property =>
          (property.1, property.2.lifted (componentName name property.1)),
        store.record (Schema.registrationsOf
          (properties.map fun property => (componentName name property.1, property.2)))) := by
  induction properties generalizing store with
  | nil => rfl
  | cons property rest inductionHypothesis =>
    rcases property with ⟨label, schema⟩
    have first := parts (label, schema) List.mem_cons_self (componentName name label) store
    have others := inductionHypothesis fun other member =>
      parts other (List.mem_cons_of_mem _ member)
    simp only [liftProperties, first, others, List.map_cons, Schema.registrationsOf_cons,
      record_append]

private theorem liftItems_replays {items : Option Schema}
    (parts : ∀ schema ∈ items, schema.LiftsByReplay) (name : String) (store : Store) :
    liftItems items name store =
      (items.map fun schema => schema.lifted name,
        store.record (Schema.registrationsOf (items.toList.map fun part => (name, part)))) := by
  cases items with
  | none => rfl
  | some schema =>
    have only := parts schema rfl name store
    simp only [liftItems, only, Option.map_some, Option.toList_some, List.map_cons, List.map_nil,
      Schema.registrationsOf_cons, Schema.registrationsOf_nil, List.append_nil]

private theorem liftAdditional_replays {object : SchemaObject}
    (parts : ∀ schema ∈ object.further?, schema.LiftsByReplay) (name : String) (store : Store) :
    liftAdditional object.additional name store =
      (object.additional.map fun additional => additional.lifted name,
        store.record (Schema.registrationsOf
          (object.further?.toList.map fun part => (name, part)))) := by
  rcases found : object.additional with _ | (flag | schema)
  · simp [liftAdditional, SchemaObject.further?, found]
  · simp [liftAdditional, SchemaObject.further?, found, Additional.lifted]
  · have member : schema ∈ object.further? := by simp [SchemaObject.further?, found]
    have only := parts schema member name store
    simp [liftAdditional, SchemaObject.further?, found, Additional.lifted, only]

private theorem liftMembers_replays {members : List Schema}
    (parts : ∀ schema ∈ members, schema.LiftsByReplay) (name : String) (number : Nat)
    (store : Store) :
    liftMembers members name number store =
      ((Schema.numbered members name number).map fun placed => placed.2.lifted placed.1,
        store.record (Schema.registrationsOf (Schema.numbered members name number))) := by
  induction members generalizing number store with
  | nil => rfl
  | cons schema rest inductionHypothesis =>
    have first := parts schema List.mem_cons_self (componentName name (toString number)) store
    have others := inductionHypothesis fun other member =>
      parts other (List.mem_cons_of_mem _ member)
    simp only [liftMembers, first, others, Schema.numbered_cons, List.map_cons,
      Schema.registrationsOf_cons, record_append]

private theorem liftParts_fields (object : SchemaObject) (name : String) (store : Store) :
    liftParts object name store =
      (let properties := liftProperties object.properties name store
       let items := liftItems object.items name properties.2
       let additional := liftAdditional object.additional name items.2
       let oneOf := liftMembers object.oneOf name 0 additional.2
       let anyOf := liftMembers object.anyOf name 0 oneOf.2
       let allOf := liftMembers object.allOf name 0 anyOf.2
       ({ object with
            properties := properties.1
            items := items.1
            additional := additional.1
            oneOf := oneOf.1
            anyOf := anyOf.1
            allOf := allOf.1 }, allOf.2)) := by
  cases object
  rfl

private theorem liftParts_replays {object : SchemaObject}
    (parts : ∀ part ∈ object.parts, part.LiftsByReplay) (name : String) (store : Store) :
    liftParts object name store =
      (object.lifted name, store.record (object.registrations name)) := by
  simp only [SchemaObject.parts, List.mem_append, List.mem_map, Option.mem_toList] at parts
  have properties : ∀ property ∈ object.properties, property.2.LiftsByReplay :=
    fun property member => parts _ (.inl (.inl (.inl (.inl (.inl ⟨property, member, rfl⟩)))))
  have items : ∀ schema ∈ object.items, schema.LiftsByReplay :=
    fun schema member => parts _ (.inl (.inl (.inl (.inl (.inr member)))))
  have further : ∀ schema ∈ object.further?, schema.LiftsByReplay :=
    fun schema member => parts _ (.inl (.inl (.inl (.inr member))))
  have oneOf : ∀ schema ∈ object.oneOf, schema.LiftsByReplay :=
    fun schema member => parts _ (.inl (.inl (.inr member)))
  have anyOf : ∀ schema ∈ object.anyOf, schema.LiftsByReplay :=
    fun schema member => parts _ (.inl (.inr member))
  have allOf : ∀ schema ∈ object.allOf, schema.LiftsByReplay :=
    fun schema member => parts _ (.inr member)
  rw [liftParts_fields]
  simp only [liftProperties_replays properties, liftItems_replays items,
    liftAdditional_replays further, liftMembers_replays oneOf, liftMembers_replays anyOf,
    liftMembers_replays allOf, SchemaObject.lifted, Schema.liftedMembers,
    SchemaObject.registrations, SchemaObject.placedParts, Schema.registrationsOf_append,
    record_append]

theorem liftsByReplay (schema : Schema) : schema.LiftsByReplay := by
  induction schema with
  | ref target =>
    intro name store
    simp [lift, Schema.lifted]
  | inline object inductionHypothesis =>
    intro name store
    have inner := liftParts_replays inductionHypothesis name
    unfold Schema.lifted
    simp only [lift, inner, Schema.registrations_inline]
    cases object.isNamedObject <;> simp

/-- Lifting leaves the same schema for every store, and replays its registrations. -/
theorem lift_eq (schema : Schema) (name : String) (store : Store) :
    lift schema name store = (schema.lifted name, store.record (schema.registrations name)) :=
  liftsByReplay schema name store

theorem liftParts_eq (object : SchemaObject) (name : String) (store : Store) :
    liftParts object name store =
      (object.lifted name, store.record (object.registrations name)) :=
  liftParts_replays (fun part _ => liftsByReplay part) name store

/-- An object is stored after the objects inside it have been taken out. -/
theorem registerSchema_eq_record (name : String) (object : SchemaObject) (store : Store) :
    store.registerSchema name object =
      (.ref name,
        store.record (object.registrations name ++ [(name, object.lifted name)])) := by
  simp only [registerSchema, liftParts_eq, record_append, record_cons, record_nil]

end Store

namespace Schema

@[simp] theorem lifted_ref (target name : String) : (ref target).lifted name = .ref target := rfl

theorem lifted_inline (object : SchemaObject) (name : String) :
    (inline object).lifted name =
      if object.isNamedObject then .ref name else .inline (object.lifted name) := by
  simp only [lifted, Store.lift, Store.liftParts_eq]
  split <;> rfl

end Schema

theorem SchemaObject.parts_lifted (object : SchemaObject) (name : String) :
    (object.lifted name).parts =
      (object.placedParts name).map fun placed => placed.2.lifted placed.1 := by
  have further : (object.lifted name).further? =
      object.further?.map fun schema => schema.lifted name := by
    rcases found : object.additional with _ | (flag | schema) <;>
      simp [further?, lifted, found, Additional.lifted]
  simp only [parts, placedParts, further, List.map_append, List.map_map]
  simp only [lifted, Schema.liftedMembers, List.map_map, Function.comp_def, Option.toList_map]

/-! ## Objects with properties alone -/

/-- An object that has no parts besides its properties lifts these one by one. -/
theorem SchemaObject.registrations_of_properties {object : SchemaObject}
    (plain : object =
      { object with items := none, additional := none, oneOf := [], anyOf := [], allOf := [] })
    (name : String) :
    object.registrations name = Schema.registrationsOf
      (object.properties.map fun property => (componentName name property.1, property.2)) := by
  rw [plain]
  simp [SchemaObject.registrations, placedParts, Schema.numbered, further?]

namespace Schema

/-- A type alone has nothing to lift. -/
theorem registrations_typed (type : SchemaType) (name : String) :
    (typed type).registrations name = [] := by
  have unnamed : (SchemaObject.typed type).isNamedObject = false := by
    simp [SchemaObject.typed, SchemaObject.isNamedObject]
  rw [typed, registrations_inline, SchemaObject.registrations_of_properties rfl, unnamed]
  rfl

theorem lifted_typed (type : SchemaType) (name : String) :
    (typed type).lifted name = .typed type := by
  have unnamed : (SchemaObject.typed type).isNamedObject = false := by
    simp [SchemaObject.typed, SchemaObject.isNamedObject]
  rw [typed, lifted_inline, unnamed]
  rfl

end Schema

end RouteDocs
