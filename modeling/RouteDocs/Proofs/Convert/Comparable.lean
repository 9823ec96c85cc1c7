import RouteDocs.Proofs.Convert.Everywhere
import RouteDocs.Proofs.Schema.Comparable
import RouteDocs.Proofs.Store.FieldObjects

namespace RouteDocs

/-!
# Rules that make comparable schemas

A schema takes values and bounds over from its rule, and names from the fields.
What it adds are texts, whole numbers and the bound zero.  So a schema is
comparable everywhere when the rule names only values and bounds that are the
same as themselves, and no field twice, and every rule inside it does likewise.
-/

namespace RuleKind

/-- The values of a kind that its schema shows. -/
def values (kind : RuleKind) : List Json :=
  match kind with
  | .array _ limits => limits.choices.getD []
  | .enumeration values => values
  | .equal value _ _ => value.toList
  | .text limits => limits.choices.getD []
  | _ => []

/-- The numbers of a kind that its schema shows. -/
def numbers (kind : RuleKind) : List Float :=
  match kind with
  | .number limits => limits.min.toList ++ limits.max.toList ++ limits.equal.toList
  | _ => []

/-- What a kind itself names is the same as itself, and its fields have different names. -/
structure Comparable (kind : RuleKind) : Prop where
  values : ∀ value ∈ kind.values, value.Comparable
  numbers : ∀ number ∈ kind.numbers, (number == number) = true
  names : kind.fields.names.Nodup

end RuleKind

/-- What a rule itself names is the same as itself. -/
structure Rule.OwnComparable (rule : Rule) : Prop where
  kind : rule.kind.Comparable
  fallback : ∀ value ∈ rule.fallback, value.Comparable

theorem Rule.OwnComparable.choices {rule : Rule} (own : rule.OwnComparable) {item? : Option Rule}
    {limits : ListLimits} (kind : rule.kind = .array item? limits) {values : List Json}
    (chosen : limits.choices = some values) : ∀ value ∈ values, value.Comparable := by
  have allowed := own.kind.values
  rw [kind] at allowed
  simpa only [RuleKind.values, chosen, Option.getD_some] using allowed

/-- What a rule and all rules inside it name is the same as itself. -/
def Rule.Comparable (rule : Rule) : Prop :=
  rule.Throughout Rule.OwnComparable

theorem Json.comparable_ofNumber {number : Float} (own : (number == number) = true) :
    (Json.ofNumber number).Comparable := by
  have real : (Json.real number).Comparable := by rw [Comparable, same, own]
  unfold ofNumber
  split
  · split
    · exact comparable_integer _
    · exact real
  · exact real

namespace SchemaObject

/-- An object without properties and bounds is comparable when its values are. -/
theorem comparable_of_values {object : SchemaObject} (noBounds : object.bounds = [])
    (noProperties : object.properties = [])
    (values : ∀ value ∈ object.values, value.Comparable) : object.Comparable :=
  ⟨.of_values noBounds values, noProperties ▸ List.nodup_nil⟩

/-- So it is when it shows nothing but texts. -/
theorem comparable_of_texts {object : SchemaObject} (noBounds : object.bounds = [])
    (noProperties : object.properties = []) (texts : List String)
    (values : object.values = texts.map .text) : object.Comparable := by
  apply comparable_of_values noBounds noProperties
  intro value member
  rw [values] at member
  rcases List.mem_map.mp member with ⟨text, _, rfl⟩
  exact Json.comparable_text text

theorem comparable_of_bare {object : SchemaObject} (noBounds : object.bounds = [])
    (noProperties : object.properties = []) (noValues : object.values = []) : object.Comparable :=
  comparable_of_texts noBounds noProperties [] noValues

end SchemaObject

theorem TextLimits.comparable_schema {limits : TextLimits}
    (choices : ∀ value ∈ limits.choices.getD [], value.Comparable) : limits.schema.Comparable :=
  SchemaObject.comparable_of_values rfl rfl choices

/-- The bounds of a number are its own, or zero. -/
theorem NumberLimits.comparable_schema {limits : NumberLimits}
    (numbers : ∀ number ∈ (RuleKind.number limits).numbers, (number == number) = true) :
    limits.schema.Comparable := by
  simp only [RuleKind.numbers, List.mem_append, Option.mem_toList, or_imp, forall_and] at numbers
  rcases numbers with ⟨⟨min, max⟩, equal⟩
  have zero : ((0.0 : Float) == 0.0) = true := by decide
  refine ⟨⟨?_, ?_⟩, List.nodup_nil⟩
  · intro value member
    cases given : limits.equal with
    | none => simp [Facets.values, schema, given] at member
    | some number =>
      simp only [Facets.values, schema, given, Option.toList_none, List.append_nil,
        List.nil_append, Option.map_some, Option.getD_some, List.mem_singleton] at member
      exact member ▸ Json.comparable_ofNumber (equal number given)
  · intro bound member
    simp only [Facets.bounds, schema, List.mem_append, Option.mem_toList] at member
    rcases member with ((least | most) | above) | below
    · split at least
      · cases least
      · exact min bound least
    · split at most
      · cases most
      · exact max bound most
    · split at above
      · cases above
        exact zero
      · cases above
    · split at below
      · cases below
        exact zero
      · cases below

namespace Mapper

/-- What mappers make without looking further is comparable when the kind is. -/
theorem comparable_plainSchema {mapper : Mapper} {kind : RuleKind} (comparable : kind.Comparable)
    {object : SchemaObject} (made : mapper.plainSchema kind = some object) :
    object.Comparable := by
  have text : kind.textLimits.schema.Comparable := by
    apply TextLimits.comparable_schema
    cases kind with
    | text limits => exact comparable.values
    | enumeration values => exact comparable.values
    | _ => exact List.forall_mem_nil _
  cases mapper
  case omitted => cases made
  case multi => cases made
  case number =>
    cases made
    cases kind with
    | number limits => exact NumberLimits.comparable_schema comparable.numbers
    | _ => exact SchemaObject.comparable_of_bare rfl rfl rfl
  case text =>
    cases made
    exact text
  case enumeration =>
    cases made
    exact text
  case date =>
    simp only [plainSchema, RuleKind.dateSchema] at made
    split at made
    · cases made
      exact SchemaObject.comparable_of_bare rfl rfl rfl
    · cases made
  case currency =>
    cases made
    cases kind with
    | currency format =>
      apply SchemaObject.comparable_of_texts rfl rfl format.example?.toList
      simp [Facets.values, RuleKind.currencySchema, SchemaObject.currency]
    | _ => exact SchemaObject.comparable_of_bare rfl rfl rfl
  case email => cases made; exact SchemaObject.comparable_of_texts rfl rfl [_] rfl
  case url => cases made; exact SchemaObject.comparable_of_texts rfl rfl [_] rfl
  case uuid => cases made; exact SchemaObject.comparable_of_texts rfl rfl [_] rfl
  case mac => cases made; exact SchemaObject.comparable_of_texts rfl rfl [_] rfl
  case luhn => cases made; exact SchemaObject.comparable_of_texts rfl rfl [_] rfl
  case objectId => cases made; exact SchemaObject.comparable_of_texts rfl rfl [_] rfl
  all_goals
    cases made
    exact SchemaObject.comparable_of_bare rfl rfl rfl

end Mapper

namespace SchemaObject

/-- Fields with different names have properties that do not clash. -/
theorem comparable_of_fields {object : SchemaObject} (noBounds : object.bounds = [])
    (noValues : object.values = []) {fields : Entries Fragment}
    (properties : object.properties = Fragment.schemas fields) (distinct : fields.names.Nodup) :
    object.Comparable := by
  refine ⟨.of_values noBounds (noValues ▸ List.forall_mem_nil _), ?_⟩
  have names : Entries.names object.properties = fields.names :=
    properties ▸ Fragment.names_schemas fields
  rw [names]
  exact distinct

/-- An object shows nothing else when allowed values are written into it. -/
theorem Comparable.withChoices {object : SchemaObject} (comparable : object.Comparable)
    {choices : List Json} (own : ∀ value ∈ choices, value.Comparable) :
    Comparable { object with choices := some choices } := by
  refine ⟨⟨fun value member => ?_, comparable.facets.bounds⟩, comparable.names⟩
  rcases List.mem_append.mp member with before | chosen
  · exact comparable.facets.values value (List.mem_append_left _ before)
  · exact own value chosen

theorem Comparable.finish {object : SchemaObject} (comparable : object.Comparable)
    (description summary : Option String) (deprecated : Option Bool) (nullable : Bool)
    {fallback : Option Json} (own : ∀ value ∈ fallback, value.Comparable) :
    Comparable { object with
      description := description
      summary := summary
      deprecated := deprecated
      nullable := nullable
      fallback := fallback.or object.fallback } := by
  refine ⟨⟨fun value member => ?_, comparable.facets.bounds⟩, comparable.names⟩
  have either : value ∈ fallback.toList ∨ value ∈ object.values := by
    simp only [Facets.values, List.mem_append, Option.mem_toList] at member ⊢
    rcases member with (standsIn | sample) | allowed
    · rcases Option.or_eq_some_iff.mp standsIn with new | ⟨_, old⟩
      · exact Or.inl new
      · exact Or.inr (Or.inl (Or.inl old))
    · exact Or.inr (Or.inl (Or.inr sample))
    · exact Or.inr (Or.inr allowed)
  rcases either with new | old
  · exact own value (Option.mem_toList.mp new)
  · exact comparable.facets.values value old

/-- The constant that a value equals is shown as it is, or as a text. -/
theorem comparable_constant {value : Option Json} (own : ∀ constant ∈ value, constant.Comparable)
    (strict : Bool) : (constant value strict).Comparable := by
  unfold constant
  split
  · exact comparable_of_bare rfl rfl rfl
  · next shown =>
    split
    · apply comparable_of_values rfl rfl
      intro sample member
      rw [List.mem_singleton.mp member]
      exact own shown rfl
    · exact comparable_of_texts rfl rfl [_] rfl

theorem comparable_shapes : RuleCondition Rule.OwnComparable Comparable where
  plain rule mapper object own made := by
    rcases MapperTable.parts_plainSchema made with none | rfl
    · exact Schema.everywhere_of_parts_nil (Mapper.comparable_plainSchema own.kind made) none
    · apply date_everywhere (comparable_of_bare rfl rfl rfl)
      · exact comparable_of_texts rfl rfl [_] rfl
      · apply comparable_of_values rfl rfl
        intro sample member
        rw [List.mem_singleton.mp member]
        exact Json.comparable_integer _
  list _ _ _ _ _ _ := comparable_of_bare rfl rfl rfl
  withChoices rule item? limits object values own kind chosen comparable :=
    comparable.withChoices (own.choices kind chosen)
  onlyChoices rule item? limits values own kind chosen :=
    comparable_of_values rfl rfl (own.choices kind chosen)
  object rule declared limits fields own _ fewer :=
    comparable_of_fields rfl rfl rfl (fewer.nodup own.kind.names)
  record _ := comparable_of_bare rfl rfl rfl
  tuple _ _ := comparable_of_bare rfl rfl rfl
  oneOfThese _ := comparable_of_bare rfl rfl rfl
  constant rule value field strict own kind := by
    apply comparable_constant
    have shown := own.kind.values
    rw [kind] at shown
    exact fun constant given => shown constant (Option.mem_toList.mpr given)
  finish rule object description summary deprecated nullable own comparable :=
    comparable.finish description summary deprecated nullable own.fallback

end SchemaObject
end RouteDocs
