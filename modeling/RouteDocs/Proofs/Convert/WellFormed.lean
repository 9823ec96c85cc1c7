import RouteDocs.Proofs.Convert.Builtin
import RouteDocs.Proofs.Convert.Regular
import RouteDocs.Proofs.Store.FieldObjects

namespace RouteDocs

/-!
# Well-formed schemas

What the conversion writes is in good shape at every depth, for every rule and
among whatever fields the rule stands.  No reference occurs: references come
into being when schemas are stored.  An object requires properties that it has,
each once and in the order of the properties.  A side is bounded in one way at
most, and at most one sort of schemas stands inside an object, so that the names
of nested components do not depend on which sort comes first.

The only thing asked of the rules is that fields which are declared together
have different names, as those of a table of fields have.
-/

namespace SchemaObject

/-- Which sorts of further schemas stand inside an object: named properties,
items, a schema for the properties that are not named, and alternatives. -/
def sorts (object : SchemaObject) : List Bool :=
  [!object.properties.isEmpty, object.items.isSome, object.further?.isSome, !object.oneOf.isEmpty]

structure WellFormed (object : SchemaObject) : Prop where
  /-- What is required is a property, and the order is that of the properties. -/
  requiredInOrder : object.required.Sublist (Entries.names object.properties)
  requiredOnce : object.required.Nodup
  lower : object.minimum = none ∨ object.exclusiveMinimum = none
  upper : object.maximum = none ∨ object.exclusiveMaximum = none
  oneSort : object.sorts.count true ≤ 1
  noAnyOf : object.anyOf = []
  noAllOf : object.allOf = []
  oneExample : object.examples.length ≤ 1

variable {object : SchemaObject}

/-- Where nothing is required, the bounds are in order as in every regular object. -/
theorem wellFormed_of_regular (regular : object.Regular) (noneRequired : object.required = [])
    (oneSort : object.sorts.count true ≤ 1) (noAllOf : object.allOf = [])
    (oneExample : object.examples.length ≤ 1) : object.WellFormed where
  requiredInOrder := noneRequired ▸ List.nil_sublist _
  requiredOnce := noneRequired ▸ List.nodup_nil
  lower := regular.lower
  upper := regular.upper
  oneSort := oneSort
  noAnyOf := regular.noAnyOf
  noAllOf := noAllOf
  oneExample := oneExample

/-- An object without parts has no schemas inside it, of whatever sort. -/
theorem wellFormed_of_parts_nil (regular : object.Regular) (none : object.parts = [])
    (noneRequired : object.required = []) (oneExample : object.examples.length ≤ 1) :
    object.WellFormed := by
  simp only [parts, List.append_eq_nil_iff, List.map_eq_nil_iff, Option.toList_eq_nil_iff] at none
  rcases none with ⟨⟨⟨⟨⟨properties, items⟩, further⟩, oneOf⟩, -⟩, noAllOf⟩
  have noSort : object.sorts.count true = 0 := by simp [sorts, properties, items, further, oneOf]
  exact wellFormed_of_regular regular noneRequired (noSort ▸ Nat.zero_le 1) noAllOf oneExample

/-- No mapper requires anything or shows two examples by itself. -/
theorem required_plain :
    PlainCondition fun object => object.required = [] ∧ object.examples.length ≤ 1 where
  any := ⟨rfl, Nat.zero_le 1⟩
  typed _ := ⟨rfl, Nat.zero_le 1⟩
  number _ := ⟨rfl, Nat.zero_le 1⟩
  text _ := ⟨rfl, Nat.zero_le 1⟩
  record := ⟨rfl, Nat.zero_le 1⟩
  formatted _ _ := ⟨rfl, Nat.le_refl 1⟩
  patterned _ _ := ⟨rfl, Nat.le_refl 1⟩
  uuid _ := ⟨rfl, Nat.le_refl 1⟩
  currency format := by
    refine ⟨rfl, ?_⟩
    cases shown : format.example? <;> simp [SchemaObject.currency, shown]
  date := ⟨rfl, Nat.zero_le 1⟩

theorem wellFormed_list (limits : ListLimits) (items : Option Schema) :
    (limits.schema items).WellFormed := by
  apply wellFormed_of_regular (regular_shapes.list limits items) rfl _ rfl (Nat.zero_le 1)
  cases shown : limits.itemSchema items <;> simp [sorts, ListLimits.schema, further?, shown]

theorem wellFormed_record (value : Option Schema) : (record value).WellFormed := by
  apply wellFormed_of_regular (regular_shapes.record value) rfl _ rfl (Nat.zero_le 1)
  cases value <;> simp [sorts, record, further?]

theorem wellFormed_tuple (count : Nat) (members : List Schema) :
    (tuple count members).WellFormed := by
  apply wellFormed_of_regular (regular_shapes.tuple count members) rfl _ rfl (Nat.zero_le 1)
  cases members <;> simp [sorts, tuple, further?]

theorem wellFormed_oneOfThese (members : List Schema) : (oneOfThese members).WellFormed := by
  apply wellFormed_of_regular (regular_oneOfThese members) rfl _ rfl (Nat.zero_le 1)
  cases members <;> simp [sorts, oneOfThese, further?]

theorem wellFormed_constant (value : Option Json) (strict : Bool) :
    (constant value strict).WellFormed := by
  have plain : (constant value strict).required = [] ∧
      (constant value strict).examples.length ≤ 1 :=
    constant_cases ⟨rfl, Nat.zero_le 1⟩ (fun _ => ⟨rfl, Nat.le_refl 1⟩)
      (fun _ => ⟨rfl, Nat.le_refl 1⟩) value strict
  exact wellFormed_of_parts_nil (regular_constant value strict) (parts_constant value strict)
    plain.1 plain.2

/-- The required fields are some of the fields. -/
theorem wellFormed_object (limits : ObjectLimits) {fields : Entries Fragment}
    (distinct : fields.names.Nodup) : (limits.schema fields).WellFormed := by
  have inOrder : (Fragment.requiredNames fields).Sublist fields.names :=
    List.filter_sublist.map Prod.fst
  exact
    { requiredInOrder := (Fragment.names_schemas fields).symm ▸ inOrder
      requiredOnce := distinct.sublist inOrder
      lower := Or.inl rfl
      upper := Or.inl rfl
      oneSort := by
        cases strict : limits.strict <;> cases fields <;>
          simp [sorts, ObjectLimits.schema, further?, strict, Fragment.schemas, Entries.mapValues]
      noAnyOf := rfl
      noAllOf := rfl
      oneExample := Nat.zero_le 1 }

theorem wellFormed_shapes : ShapeCondition List.Nodup WellFormed where
  fewer _ _ sublist distinct := distinct.sublist sublist
  plain _ _ object made := by
    rcases MapperTable.parts_plainSchema made with none | rfl
    · rcases required_plain.of_plainSchema made with ⟨noneRequired, oneExample⟩
      exact Schema.everywhere_of_parts_nil
        (wellFormed_of_parts_nil (regular_plain.of_plainSchema made) none noneRequired oneExample)
        none
    · have text : ((formatted "date-time").withExample Format.dateExample).Regular :=
        regular_of_type (Option.some_ne_none _) rfl rfl rfl
      have number : Regular { type := some .number, examples := [.integer Format.epochExample] } :=
        regular_of_type (Option.some_ne_none _) rfl rfl rfl
      exact date_everywhere (wellFormed_oneOfThese _)
        (wellFormed_of_parts_nil text rfl rfl (Nat.le_refl 1))
        (wellFormed_of_parts_nil number rfl rfl (Nat.le_refl 1))
  list := wellFormed_list
  withChoices object values wellFormed := { wellFormed with }
  onlyChoices values := wellFormed_of_parts_nil (regular_onlyChoices values) rfl rfl (Nat.zero_le 1)
  object limits _ distinct := wellFormed_object limits distinct
  record := wellFormed_record
  tuple := wellFormed_tuple
  oneOfThese := wellFormed_oneOfThese
  constant := wellFormed_constant
  finish _ _ _ _ _ _ wellFormed := { wellFormed with }

end SchemaObject

namespace MapperTable

/-- Every schema that a rule is converted to is well-formed at every depth and
free of references, in whatever scope the conversion takes place. -/
theorem converted_schemas_are_wellFormed {rule : Rule} {defaults : Notes} {scope : Scope}
    {fragment : Fragment} (distinct : rule.FieldNames List.Nodup)
    (around : scope.siblings.FieldNames List.Nodup)
    (converted : builtin.convert rule defaults scope = .ok (some fragment)) :
    fragment.schema.Everywhere SchemaObject.WellFormed :=
  convert_throughout SchemaObject.wellFormed_shapes.ofRules hasOwnOnly_builtin.callersSatisfy
    distinct.throughout (fun field declared => (around.parts field declared).throughout) converted

end MapperTable

/-! ## A list of objects next to a field that is equal to it -/

/-- An article and, unless it is one, the number of pieces. -/
def Rule.orderLine : Rule :=
  .object [("article", .text), ("pieces", { Rule.number with optional := true })]

def Rule.orderLines : Entries Rule :=
  [("lines", .array orderLine)]

theorem Rule.fieldNames_orderLines : orderLines.FieldNames List.Nodup := by
  have article : Rule.text.FieldNames List.Nodup := fieldNames_of_parts_nil List.nodup_nil rfl
  have pieces : Rule.FieldNames List.Nodup { Rule.number with optional := true } :=
    fieldNames_of_parts_nil List.nodup_nil rfl
  have line : orderLine.FieldNames List.Nodup := fieldNames_object
    ⟨by decide, List.forall_mem_cons.mpr ⟨article, List.forall_mem_singleton.mpr pieces⟩⟩
  have lines : (Rule.array orderLine).FieldNames List.Nodup :=
    .intro List.nodup_nil (List.forall_mem_singleton.mpr line)
  exact ⟨by decide, List.forall_mem_singleton.mpr lines⟩

/-- A field that is equal to the lines has objects of its own inside, all in good shape. -/
theorem MapperTable.converted_schemas_are_wellFormed_orderLines :
    ((Rule.sameAs "lines").FieldNames List.Nodup ∧ Rule.orderLines.FieldNames List.Nodup) ∧
      ∃ fragment, builtin.convert (.sameAs "lines") {} (.ofFields Rule.orderLines) =
          .ok (some fragment) ∧
        fragment.schema.Everywhere SchemaObject.WellFormed := by
  have distinct : (Rule.sameAs "lines").FieldNames List.Nodup :=
    Rule.fieldNames_of_parts_nil List.nodup_nil rfl
  obtain ⟨fragment, converted⟩ : ∃ fragment,
      builtin.convert (.sameAs "lines") {} (.ofFields Rule.orderLines) = .ok (some fragment) := by
    rw [convert_builtin, Rule.fragment?_eq]
    exact ⟨_, rfl⟩
  exact ⟨⟨distinct, Rule.fieldNames_orderLines⟩, fragment, converted,
    converted_schemas_are_wellFormed distinct Rule.fieldNames_orderLines converted⟩

end RouteDocs
