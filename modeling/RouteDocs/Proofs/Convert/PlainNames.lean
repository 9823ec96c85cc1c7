import RouteDocs.Proofs.Convert.Builtin
import RouteDocs.Proofs.Operation.Components
import RouteDocs.Proofs.Store.Naming

namespace RouteDocs

/-!
# Converted fields with plain names

The name of a component is made of names of fields and numbers of alternatives.
A shape of a converted rule has parts of one sort only: it has properties, or
alternatives, or a single schema that adds nothing to the name.  Hence the
parts of a shape are placed apart whenever the names of fields that are
declared together are distinct and have no point, and the objects inside
converted fields are registered under names of their own.
-/

namespace SchemaObject

variable {object : SchemaObject}

theorem placesApart_of_parts_nil (none : object.parts = []) : object.PlacesApart := by
  apply placesApart_of_length
  rw [none]
  exact Nat.zero_le 1

theorem placesApart_oneOfThese (members : List Schema) : (oneOfThese members).PlacesApart := by
  intro name
  have placed : (oneOfThese members).placedParts name = Schema.numbered members name 0 := by
    simp [placedParts, oneOfThese, further?, Schema.numbered]
  rw [placed]
  exact Schema.numbered_apart members name 0

theorem placesApart_list (limits : ListLimits) (items : Option Schema) :
    (limits.schema items).PlacesApart := by
  apply placesApart_of_length
  have parts : (limits.schema items).parts = (limits.itemSchema items).toList := by
    simp [SchemaObject.parts, ListLimits.schema, further?]
  rw [parts]
  cases limits.itemSchema items <;> simp

theorem placesApart_record (value : Option Schema) : (record value).PlacesApart := by
  apply placesApart_of_length
  have parts : (record value).parts = value.toList := by
    cases value <;> simp [SchemaObject.parts, record, further?]
  rw [parts]
  cases value <;> simp

theorem placesApart_tuple (count : Nat) (members : List Schema) :
    (tuple count members).PlacesApart := by
  apply placesApart_of_length
  have parts : (tuple count members).parts = (tuple count members).items.toList := by
    simp [SchemaObject.parts, tuple, further?]
  rw [parts]
  cases (tuple count members).items <;> simp

theorem placesApart_constant (value : Option Json) (strict : Bool) :
    (constant value strict).PlacesApart :=
  placesApart_of_parts_nil (parts_constant value strict)

/-- The schema of fields with plain names has only properties. -/
theorem placesApart_object (limits : ObjectLimits) {fields : Entries Fragment}
    (plain : PlainNames fields.names) : (limits.schema fields).PlacesApart := by
  intro name
  have placed : (limits.schema fields).placedParts name =
      (Fragment.schemas fields).map fun property => (componentName name property.1, property.2) := by
    cases strict : limits.strict <;>
      simp [placedParts, ObjectLimits.schema, further?, Schema.numbered, strict]
  rw [placed]
  apply Entries.placed_apart
  rw [Fragment.names_schemas]
  exact plain

theorem placesApart_shapes : ShapeCondition PlainNames PlacesApart where
  fewer _ _ sublist plain := plain.sublist sublist
  plain _ _ _ := MapperTable.plainSchema_everywhere (fun _ none => placesApart_of_parts_nil none)
    (placesApart_oneOfThese _)
  list := placesApart_list
  withChoices _ _ apart := apart
  onlyChoices _ := placesApart_of_parts_nil rfl
  object limits _ plain := placesApart_object limits plain
  record := placesApart_record
  tuple := placesApart_tuple
  oneOfThese := placesApart_oneOfThese
  constant := placesApart_constant
  finish _ _ _ _ _ _ apart := apart

end SchemaObject

namespace Fragment

variable {fields : Entries Fragment}

theorem placesApart_object (plain : PlainNames fields.names) (notes : Notes) :
    (object fields notes).PlacesApart := by
  intro name
  have placed : (object fields notes).placedParts name =
      (schemas fields).map fun property => (componentName name property.1, property.2) := by
    rw [placedParts_object, schemas, Entries.mapValues, List.map_map]
    rfl
  rw [placed]
  apply Entries.placed_apart
  rw [names_schemas]
  exact plain

/-- Fields with plain names register every name once, the name of their object at the end. -/
theorem nodup_names_registrations (plain : PlainNames fields.names)
    (separates : ∀ field ∈ fields, field.2.schema.Everywhere SchemaObject.SeparatesNames)
    (apart : ∀ field ∈ fields, field.2.schema.Everywhere SchemaObject.PlacesApart)
    (notes : Notes) (name : String) : (Entries.names (registrations fields notes name)).Nodup := by
  have inside : (Entries.names ((object fields notes).registrations name)).Nodup := by
    apply (placesApart_object plain notes).nodup_registrations
    intro placed member
    rw [placedParts_object] at member
    rcases List.mem_map.mp member with ⟨field, given, rfl⟩
    exact Schema.nodup_names_registrations (separates field given) (apart field given) _
  have fresh : name ∉ Entries.names ((object fields notes).registrations name) := by
    apply SchemaObject.fresh_of_within
    intro placed member
    rw [placedParts_object] at member
    rcases List.mem_map.mp member with ⟨field, given, rfl⟩
    exact Within.componentName_self name field.1
  exact Entries.nodup_names_concat inside fresh _

/-- The objects with properties inside fields, at every depth. -/
def namedObjects (fields : Entries Fragment) : List SchemaObject :=
  fields.flatMap fun field => field.2.schema.namedObjects

theorem registrations_object_oneEach (fields : Entries Fragment) (notes : Notes) (name : String) :
    Registrations.OneEach ((object fields notes).registrations name) (namedObjects fields) := by
  have objects : namedObjects fields = (object fields notes).parts.flatMap Schema.namedObjects := by
    rw [parts_object, List.flatMap_map]
    rfl
  rw [objects]
  exact SchemaObject.registrations_oneEach (fun part _ => part.registrations_oneEach) name

end Fragment

namespace Store

/-- The naming scheme has no collisions where names of fields have no point.
Fields that the built-in table converts can be registered under any name: the
empty store then holds their object under this name, and one component for each
object with properties inside them, all under different names. -/
theorem registering_plain_fields_never_collides {fields : Entries Rule}
    (plain : fields.FieldNames PlainNames) (name : String) (notes : Notes) :
    ∃ fragments, MapperTable.builtin.convertFields fields = .ok fragments ∧
      let after := (({} : Store).registerObject name fragments notes).2
      after.warnings = [] ∧ after.names.Nodup ∧
        after.components.length = 1 + (Fragment.namedObjects fragments).length ∧
        ∃ nested : Registrations,
          after.components = nested ++ [(name, (Fragment.object fragments notes).lifted name)] ∧
            nested.OneEach (Fragment.namedObjects fragments) := by
  have converted := MapperTable.convertFields_builtin fields
  have names := plain.names.sublist (MapperTable.names_convertEntries _ converted)
  have separates := MapperTable.convertFields_everywhere SchemaObject.separatesNames_shapes
    MapperTable.separatesNames_builtin (Entries.fieldNames_of_forall (fun _ => trivial) fields) converted
  have apart := MapperTable.convertFields_everywhere SchemaObject.placesApart_shapes
    MapperTable.hasOwnOnly_builtin.callersSatisfy plain converted
  have distinct := Fragment.nodup_names_registrations names separates apart notes name
  have each := Fragment.registrations_object_oneEach (Fragment.ofFields fields) notes name
  have silent : (({} : Store).record
      (Fragment.registrations (Fragment.ofFields fields) notes name)).warnings = [] :=
    warnings_record_eq_self_iff.mpr ⟨distinct, fun _ _ => List.not_mem_nil⟩
  have stored := components_record_of_silent silent
  refine ⟨_, converted, ?_⟩
  rw [registerObject_eq_record]
  refine ⟨silent, ?_, ?_, _, stored, each⟩
  · rw [Store.names, stored]
    exact distinct
  · rw [stored, Fragment.registrations, List.length_append, List.length_append, each.length_eq]
    simp only [List.length_nil, List.length_singleton]
    omega

end Store

/-! ## Objects inside a field and inside an alternative -/

/-- A field with the name of an alternative, inside an object and inside alternatives. -/
def Rule.choices : Entries Rule :=
  [("0", .object [("0", .text)]), ("either", { kind := .multi [.object [("0", .text)], .text] })]

theorem Rule.plainNames_choices : Rule.choices.FieldNames PlainNames := by
  have text : Rule.text.FieldNames PlainNames := fieldNames_of_parts_nil (by decide) rfl
  have object : (Rule.object [("0", .text)]).FieldNames PlainNames :=
    fieldNames_object ⟨by decide, List.forall_mem_singleton.mpr text⟩
  have multi : Rule.FieldNames PlainNames
      { kind := .multi [.object [("0", .text)], .text] } :=
    .intro (by decide) (List.forall_mem_cons.mpr ⟨object, List.forall_mem_singleton.mpr text⟩)
  exact ⟨by decide, List.forall_mem_cons.mpr ⟨object, List.forall_mem_singleton.mpr multi⟩⟩

/-- Two objects have properties, that of the field and that of the first alternative. -/
theorem Rule.length_namedObjects_choices :
    (Fragment.namedObjects (Fragment.ofFields Rule.choices)).length = 2 := by
  have inside : Fragment.ofFields [("0", .text)] =
      [("0", { schema := .inline (TextLimits.schema {}), optional := false })] := by
    simp only [Fragment.ofFields, Fragment.ofEntries, List.filterMap_cons, List.filterMap_nil,
      fragment?_text, Option.map_some]
  have either : ∀ scope,
      Rule.fragment? { kind := .multi [.object [("0", .text)], .text] } {} scope =
        some
          { schema := .inline (.oneOfThese
              [.inline (ObjectLimits.schema {} (Fragment.ofFields [("0", .text)])),
                .inline (TextLimits.schema {})])
            optional := false } := by
    intro scope
    rw [fragment?_eq]
    simp only [RuleKind.shape?, Fragment.schemasOf, List.filterMap_cons, List.filterMap_nil,
      fragment?_object, fragment?_text, Option.map_some]
    rfl
  have text : (Schema.inline (TextLimits.schema {})).namedObjects = [] := by
    rw [Schema.namedObjects_inline]
    rfl
  rw [Fragment.ofFields]
  simp only [choices, Fragment.ofEntries, List.filterMap_cons, List.filterMap_nil, fragment?_object,
    either, inside, Option.map_some, Fragment.namedObjects, List.flatMap_cons, List.flatMap_nil,
    Schema.namedObjects_inline]
  simp [SchemaObject.parts, SchemaObject.further?, ObjectLimits.schema, Fragment.schemas,
    Entries.mapValues, SchemaObject.oneOfThese, SchemaObject.isNamedObject, SchemaObject.isObject,
    Schema.namedObjects_inline, text]

/-- The two objects become `choice.0` and `choice.either.0`. -/
theorem Store.registering_plain_fields_never_collides_choices :
    Rule.choices.FieldNames PlainNames ∧
      ∃ fragments, MapperTable.builtin.convertFields Rule.choices = .ok fragments ∧
        (({} : Store).registerObject "choice" fragments {}).2.warnings = [] ∧
          (({} : Store).registerObject "choice" fragments {}).2.components.length = 3 := by
  rcases registering_plain_fields_never_collides Rule.plainNames_choices "choice" {} with
    ⟨fragments, converted, silent, -, length, -⟩
  refine ⟨Rule.plainNames_choices, fragments, converted, silent, ?_⟩
  rw [MapperTable.convertFields_builtin, Except.ok.injEq] at converted
  rw [length, ← converted, Rule.length_namedObjects_choices]

end RouteDocs
