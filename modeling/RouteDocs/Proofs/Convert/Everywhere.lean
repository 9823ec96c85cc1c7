import RouteDocs.Proofs.Convert.Termination
import RouteDocs.Proofs.Except
import RouteDocs.Proofs.Schema.Parts

namespace RouteDocs

/-!
# What holds everywhere in a converted rule

A converted rule is built from a few shapes: the schema that a mapper makes
without looking further, and those of lists, objects, records, tuples,
alternatives and constants around schemas already converted.  A condition that
holds of every shape, whatever stands inside it, therefore holds at every
depth.  References are no shape, so a converted rule has none; this includes a
field that is converted like its sibling, because the sibling is converted anew.

Some conditions hold only of rules that are admitted: the shape of an object
depends on the names of its fields, and bounds and values are taken over from
the rule.  Such a condition holds everywhere in what is made of a rule, where
the rule, all rules inside it and all fields around it are admitted.

Of a function that a caller has put into the table nothing is known, so the
condition is asked of what it makes.
-/

theorem Schema.everywhere_of_parts_nil {condition : SchemaObject → Prop} {object : SchemaObject}
    (holds : condition object) (none : object.parts = []) : (inline object).Everywhere condition := by
  rw [everywhere_inline, none]
  exact ⟨holds, fun _ member => absurd member List.not_mem_nil⟩

/-- A condition on the schemas that mappers make without looking further. -/
structure PlainCondition (condition : SchemaObject → Prop) : Prop where
  any : condition {}
  typed : ∀ type, condition (.typed type)
  number : ∀ limits : NumberLimits, condition limits.schema
  text : ∀ limits : TextLimits, condition limits.schema
  record : condition (.record none)
  formatted : ∀ format sample, condition ((SchemaObject.formatted format).withExample sample)
  patterned : ∀ pattern sample, condition (.patterned pattern sample)
  uuid : ∀ version, condition (.uuid version)
  currency : ∀ format, condition (.currency format)
  date : condition .date

theorem PlainCondition.of_plainSchema {condition : SchemaObject → Prop}
    (shapes : PlainCondition condition) {mapper : Mapper} {kind : RuleKind} {object : SchemaObject}
    (made : mapper.plainSchema kind = some object) : condition object := by
  cases mapper
  case omitted => cases made
  case multi => cases made
  case number =>
    cases made
    unfold RuleKind.numberSchema
    split
    · exact shapes.number _
    · exact shapes.typed _
  case currency =>
    cases made
    unfold RuleKind.currencySchema
    split
    · exact shapes.currency _
    · exact shapes.typed _
  case date =>
    simp only [Mapper.plainSchema, RuleKind.dateSchema] at made
    split at made
    · cases made
      exact shapes.date
    · cases made
  case any => cases made; exact shapes.any
  case text => cases made; exact shapes.text _
  case enumeration => cases made; exact shapes.text _
  case record => cases made; exact shapes.record
  case email => cases made; exact shapes.formatted _ _
  case url => cases made; exact shapes.formatted _ _
  case uuid => cases made; exact shapes.uuid _
  case mac => cases made; exact shapes.patterned _ _
  case luhn => cases made; exact shapes.patterned _ _
  case objectId => cases made; exact shapes.patterned _ _
  -- A mapper for rules around others makes the schema of its type where it finds another kind.
  all_goals
    cases made
    exact shapes.typed _

/-- What mappers make without looking further has no parts, a date apart, which
is a choice between two schemas without parts. -/
theorem SchemaObject.parts_shapes :
    PlainCondition fun object => object.parts = [] ∨ object = .date where
  any := Or.inl rfl
  typed _ := Or.inl rfl
  number _ := Or.inl rfl
  text _ := Or.inl rfl
  record := Or.inl rfl
  formatted _ _ := Or.inl rfl
  patterned _ _ := Or.inl rfl
  uuid _ := Or.inl rfl
  currency _ := Or.inl rfl
  date := Or.inr rfl

theorem MapperTable.parts_plainSchema {mapper : Mapper} {kind : RuleKind} {object : SchemaObject}
    (made : mapper.plainSchema kind = some object) :
    object.parts = [] ∨ object = .date :=
  SchemaObject.parts_shapes.of_plainSchema made

/-- The schema of a constant is one of three: of a constant that is not known, of
one that is compared strictly, and of one whose text counts. -/
@[elab_as_elim]
theorem SchemaObject.constant_cases {motive : SchemaObject → Prop} (unknown : motive (.typed .string))
    (strictly : ∀ value : Json, motive { type := typeOf value, examples := [value] })
    (loosely : ∀ text, motive ((typed .string).withExample text))
    (value : Option Json) (strict : Bool) : motive (constant value strict) := by
  unfold constant
  split
  · exact unknown
  · split
    · exact strictly _
    · exact loosely _

theorem SchemaObject.parts_constant (value : Option Json) (strict : Bool) :
    (constant value strict).parts = [] :=
  constant_cases rfl (fun _ => rfl) (fun _ => rfl) value strict

theorem SchemaObject.date_everywhere {condition : SchemaObject → Prop} (date : condition .date)
    (text : condition ((SchemaObject.formatted "date-time").withExample Format.dateExample))
    (number : condition { type := some .number, examples := [.integer Format.epochExample] }) :
    (Schema.inline .date).Everywhere condition := by
  rw [Schema.everywhere_inline]
  refine ⟨date, fun part member => ?_⟩
  rcases List.mem_cons.mp member with rfl | later
  · exact Schema.everywhere_of_parts_nil text rfl
  · cases List.mem_singleton.mp later
    exact Schema.everywhere_of_parts_nil number rfl

/-- A condition on schemas without parts holds of what mappers make by themselves. -/
theorem MapperTable.plainSchema_everywhere {condition : SchemaObject → Prop}
    (leaf : ∀ object : SchemaObject, object.parts = [] → condition object)
    (date : condition .date) {mapper : Mapper} {kind : RuleKind} {object : SchemaObject}
    (made : mapper.plainSchema kind = some object) :
    (Schema.inline object).Everywhere condition := by
  rcases parts_plainSchema made with none | rfl
  · exact Schema.everywhere_of_parts_nil (leaf object none) none
  · exact SchemaObject.date_everywhere date (leaf _ rfl) (leaf _ rfl)

/-- The parts of an object of fields are their schemas. -/
theorem ObjectLimits.parts_schema (limits : ObjectLimits) (fields : Entries Fragment) :
    (limits.schema fields).parts = fields.map fun field => field.2.schema := by
  cases strict : limits.strict <;>
    simp [SchemaObject.parts, SchemaObject.further?, schema, strict, Fragment.schemas,
      Entries.mapValues]

/-- A condition on objects that every shape of a converted rule satisfies, where
the names of fields declared together are allowed. -/
structure ShapeCondition (allowed : List String → Prop) (condition : SchemaObject → Prop) :
    Prop where
  /-- Fields that do not appear leave fewer names. -/
  fewer : ∀ names others : List String, others.Sublist names → allowed names → allowed others
  /-- The schemas that mappers make by themselves; that of a date has alternatives. -/
  plain : ∀ (mapper : Mapper) (kind : RuleKind) (object : SchemaObject),
    mapper.plainSchema kind = some object → (Schema.inline object).Everywhere condition
  list : ∀ (limits : ListLimits) (items : Option Schema), condition (limits.schema items)
  /-- Allowed items are written into the schema of the items. -/
  withChoices : ∀ (object : SchemaObject) (values : List Json),
    condition object → condition { object with choices := some values }
  onlyChoices : ∀ values : List Json, condition { choices := some values }
  object : ∀ (limits : ObjectLimits) (fields : Entries Fragment), allowed fields.names →
    condition (limits.schema fields)
  record : ∀ value : Option Schema, condition (.record value)
  tuple : ∀ (count : Nat) (members : List Schema), condition (.tuple count members)
  oneOfThese : ∀ members : List Schema, condition (.oneOfThese members)
  constant : ∀ (value : Option Json) (strict : Bool), condition (.constant value strict)
  finish : ∀ (object : SchemaObject) (description summary : Option String)
    (deprecated : Option Bool) (nullable : Bool) (fallback : Option Json), condition object →
      condition { object with
        description := description
        summary := summary
        deprecated := deprecated
        nullable := nullable
        fallback := fallback }

/-- A condition on objects that every shape made of an admitted rule satisfies. -/
structure RuleCondition (admits : Rule → Prop) (condition : SchemaObject → Prop) : Prop where
  /-- The schemas that mappers make by themselves; that of a date has alternatives. -/
  plain : ∀ (rule : Rule) (mapper : Mapper) (object : SchemaObject), admits rule →
    mapper.plainSchema rule.kind = some object → (Schema.inline object).Everywhere condition
  list : ∀ (rule : Rule) (item? : Option Rule) (limits : ListLimits) (items : Option Schema),
    admits rule → rule.kind = .array item? limits → condition (limits.schema items)
  /-- Allowed items are written into the schema of the items. -/
  withChoices : ∀ (rule : Rule) (item? : Option Rule) (limits : ListLimits) (object : SchemaObject)
    (values : List Json), admits rule → rule.kind = .array item? limits →
      limits.choices = some values → condition object → condition { object with choices := some values }
  onlyChoices : ∀ (rule : Rule) (item? : Option Rule) (limits : ListLimits) (values : List Json),
    admits rule → rule.kind = .array item? limits → limits.choices = some values →
      condition { choices := some values }
  /-- Fields that do not appear leave fewer names. -/
  object : ∀ (rule : Rule) (declared : Option (Entries Rule)) (limits : ObjectLimits)
    (fields : Entries Fragment), admits rule → rule.kind = .object declared limits →
      fields.names.Sublist rule.kind.fields.names → condition (limits.schema fields)
  record : ∀ value : Option Schema, condition (.record value)
  tuple : ∀ (count : Nat) (members : List Schema), condition (.tuple count members)
  oneOfThese : ∀ members : List Schema, condition (.oneOfThese members)
  constant : ∀ (rule : Rule) (value : Option Json) (field : Option String) (strict : Bool),
    admits rule → rule.kind = .equal value field strict → condition (.constant value strict)
  finish : ∀ (rule : Rule) (object : SchemaObject) (description summary : Option String)
    (deprecated : Option Bool) (nullable : Bool), admits rule → condition object →
      condition { object with
        description := description
        summary := summary
        deprecated := deprecated
        nullable := nullable
        fallback := rule.fallback.or object.fallback }

/-- A condition on shapes asks nothing of a rule besides the names of its fields. -/
theorem ShapeCondition.ofRules {allowed : List String → Prop} {condition : SchemaObject → Prop}
    (shapes : ShapeCondition allowed condition) :
    RuleCondition (fun rule => allowed rule.kind.fields.names) condition where
  plain rule mapper object _ made := shapes.plain mapper rule.kind object made
  list _ _ limits items _ _ := shapes.list limits items
  withChoices _ _ _ object values _ _ _ holds := shapes.withChoices object values holds
  onlyChoices _ _ _ values _ _ _ := shapes.onlyChoices values
  object _ _ limits fields names _ fewer :=
    shapes.object limits fields (shapes.fewer _ _ fewer names)
  record := shapes.record
  tuple := shapes.tuple
  oneOfThese := shapes.oneOfThese
  constant _ value _ strict _ _ := shapes.constant value strict
  finish _ object description summary deprecated nullable _ holds :=
    shapes.finish object description summary deprecated nullable _ holds

namespace RuleCondition

variable {admits : Rule → Prop} {condition : SchemaObject → Prop} {rule : Rule}

theorem constant_everywhere (shapes : RuleCondition admits condition) (admitted : admits rule)
    {value : Option Json} {field : Option String} {strict : Bool}
    (kind : rule.kind = .equal value field strict) :
    (Schema.inline (.constant value strict)).Everywhere condition := by
  exact Schema.everywhere_of_parts_nil (shapes.constant rule value field strict admitted kind)
    (SchemaObject.parts_constant value strict)

/-- Items keep the condition where allowed values are written into them. -/
theorem itemSchema_everywhere (shapes : RuleCondition admits condition) (admitted : admits rule)
    {item? : Option Rule} {limits : ListLimits} (kind : rule.kind = .array item? limits)
    {items : Option Schema} (inside : ∀ schema ∈ items, schema.Everywhere condition) :
    ∀ schema ∈ limits.itemSchema items, schema.Everywhere condition := by
  intro schema member
  unfold ListLimits.itemSchema at member
  split at member
  · exact inside schema member
  · next values object chosen =>
    cases member
    rcases Schema.everywhere_inline.mp (inside (.inline object) rfl) with ⟨holds, parts⟩
    have written := shapes.withChoices rule item? limits object values admitted kind chosen holds
    exact Schema.everywhere_inline.mpr ⟨written, parts⟩
  · next _ label _ => exact absurd (inside (.ref label) rfl) Schema.not_everywhere_ref
  · next values chosen =>
    cases member
    have written := shapes.onlyChoices rule item? limits values admitted kind chosen
    exact Schema.everywhere_of_parts_nil written rfl

theorem list_everywhere (shapes : RuleCondition admits condition) (admitted : admits rule)
    {item? : Option Rule} {limits : ListLimits} (kind : rule.kind = .array item? limits)
    {items : Option Schema} (inside : ∀ schema ∈ items, schema.Everywhere condition) :
    (Schema.inline (limits.schema items)).Everywhere condition := by
  rw [Schema.everywhere_inline]
  refine ⟨shapes.list rule item? limits items admitted kind, fun part member => ?_⟩
  apply shapes.itemSchema_everywhere admitted kind inside
  simpa [SchemaObject.parts, SchemaObject.further?, ListLimits.schema] using member

theorem object_everywhere (shapes : RuleCondition admits condition) (admitted : admits rule)
    {declared : Option (Entries Rule)} {limits : ObjectLimits}
    (kind : rule.kind = .object declared limits) {fields : Entries Fragment}
    (names : fields.names.Sublist rule.kind.fields.names)
    (inside : ∀ field ∈ fields, field.2.schema.Everywhere condition) :
    (Schema.inline (limits.schema fields)).Everywhere condition := by
  rw [Schema.everywhere_inline, limits.parts_schema]
  refine ⟨shapes.object rule declared limits fields admitted kind names, fun part member => ?_⟩
  obtain ⟨field, given, rfl⟩ := List.mem_map.mp member
  exact inside field given

theorem record_everywhere (shapes : RuleCondition admits condition) {value : Option Schema}
    (inside : ∀ schema ∈ value, schema.Everywhere condition) :
    (Schema.inline (.record value)).Everywhere condition := by
  rw [Schema.everywhere_inline]
  refine ⟨shapes.record value, fun part member => ?_⟩
  cases value with
  | none => simp [SchemaObject.parts, SchemaObject.further?, SchemaObject.record] at member
  | some schema =>
    simp only [SchemaObject.parts, SchemaObject.further?, SchemaObject.record, List.map_nil,
      Option.toList_none, Option.toList_some, List.nil_append, List.append_nil,
      List.mem_singleton] at member
    exact member ▸ inside schema rfl

theorem oneOfThese_everywhere (shapes : RuleCondition admits condition) {members : List Schema}
    (inside : ∀ schema ∈ members, schema.Everywhere condition) :
    (Schema.inline (.oneOfThese members)).Everywhere condition := by
  rw [Schema.everywhere_inline]
  refine ⟨shapes.oneOfThese members, fun part member => inside part ?_⟩
  simpa [SchemaObject.parts, SchemaObject.further?, SchemaObject.oneOfThese] using member

theorem tuple_everywhere (shapes : RuleCondition admits condition) {count : Nat}
    {members : List Schema} (inside : ∀ schema ∈ members, schema.Everywhere condition) :
    (Schema.inline (.tuple count members)).Everywhere condition := by
  rw [Schema.everywhere_inline]
  refine ⟨shapes.tuple count members, fun part member => ?_⟩
  cases empty : members.isEmpty with
  | true => simp [SchemaObject.parts, SchemaObject.further?, SchemaObject.tuple, empty] at member
  | false =>
    simp only [SchemaObject.parts, SchemaObject.further?, SchemaObject.tuple, empty, List.map_nil,
      Bool.false_eq_true, if_false, Option.toList_some, Option.toList_none, List.nil_append,
      List.append_nil, List.mem_singleton] at member
    exact member ▸ shapes.oneOfThese_everywhere inside

theorem finish_everywhere (shapes : RuleCondition admits condition) (admitted : admits rule)
    {object : SchemaObject} (inside : (Schema.inline object).Everywhere condition)
    (defaults : Notes) : (rule.finish defaults object).schema.Everywhere condition := by
  obtain ⟨holds, parts⟩ := Schema.everywhere_inline.mp inside
  exact Schema.everywhere_inline.mpr
    ⟨shapes.finish rule object _ _ _ _ admitted holds, parts⟩

end RuleCondition

/-- What holds of the fields of a scope and of every rule inside them. -/
def Scope.Throughout (condition : Rule → Prop) (scope : Scope) : Prop :=
  ∀ field ∈ scope.siblings, field.2.Throughout condition

namespace Conversion

variable {outer inner : Conversion} {admits : Rule → Prop}

/-- What holds of the rule of a conversion, of the fields around it and of all
rules inside these. -/
structure Throughout (admits : Rule → Prop) (conversion : Conversion) : Prop where
  rule : conversion.rule.Throughout admits
  around : conversion.scope.Throughout admits

theorem Calls.throughout (called : outer.Calls inner) (admitted : outer.Throughout admits) :
    inner.Throughout admits := by
  cases called with
  | inner inside => exact ⟨admitted.rule.inner _ inside, admitted.around⟩
  | field declared => exact ⟨admitted.rule.fields _ declared, admitted.rule.fields⟩
  | sibling equal reached =>
    have found := (Scope.get?_of_reachable?_eq_some reached).2
    exact ⟨admitted.around _ (Entries.mem_of_get?_eq_some found), admitted.around⟩

end Conversion

namespace MapperTable

variable {table : MapperTable} {admits : Rule → Prop} {condition : SchemaObject → Prop}

/-! ## What callers bring along -/

/-- What the functions of callers make of an admitted rule among admitted fields satisfies
the condition everywhere. -/
def CallersSatisfy (table : MapperTable) (admits : Rule → Prop)
    (condition : SchemaObject → Prop) : Prop :=
  ∀ tag map, table.mapper? tag = some (.caller map) →
    ∀ (conversion : Conversion) (object : SchemaObject), conversion.Throughout admits →
      map conversion.rule conversion.scope = .ok (some object) →
        (Schema.inline object).Everywhere condition

/-- The table has no functions of callers. -/
def HasOwnOnly (table : MapperTable) : Prop :=
  ∀ tag map, table.mapper? tag ≠ some (.caller map)

theorem hasOwnOnly_builtin : builtin.HasOwnOnly := by
  intro tag map served
  rcases Option.map_eq_some_iff.mp served with ⟨mapper, -, impossible⟩
  cases impossible

theorem HasOwnOnly.callersSatisfy (own : table.HasOwnOnly) : table.CallersSatisfy admits condition :=
  fun tag map served => absurd served (own tag map)

theorem exists_of_mapperFor_eq_caller {tag : RuleTag}
    {map : Rule → Scope → Except Fault (Option SchemaObject)}
    (served : table.mapperFor tag = .ok (.caller map)) :
    ∃ served, table.mapper? served = some (.caller map) := by
  have ofBase : table.base = .ok (.caller map) →
      ∃ served, table.mapper? served = some (.caller map) := by
    intro based
    unfold base at based
    split at based
    · cases based
    · next found =>
      cases based
      exact ⟨.text, found⟩
    · cases based
  unfold mapperFor at served
  split at served
  · next found =>
    unfold settle at served
    split at served
    · exact ofBase served
    · cases served
      exact ⟨tag, found⟩
  · split at served
    · exact ofBase served
    · cases served

/-! ## Along the functions of the conversion -/

/-- What a conversion gives satisfies the condition everywhere. -/
def GivesEverywhere (table : MapperTable) (condition : SchemaObject → Prop)
    (conversion : Conversion) : Prop :=
  ∀ defaults fragment,
    table.convert conversion.rule defaults conversion.scope = .ok (some fragment) →
      fragment.schema.Everywhere condition

theorem GivesEverywhere.of_map_schema {conversion : Conversion}
    (gives : table.GivesEverywhere condition conversion) {fragment? : Option Fragment}
    (converted : table.convert conversion.rule {} conversion.scope = .ok fragment?) :
    ∀ schema ∈ fragment?.map Fragment.schema, schema.Everywhere condition := by
  intro schema member
  rcases Option.map_eq_some_iff.mp member with ⟨fragment, rfl, rfl⟩
  exact gives {} fragment converted

theorem convertMembers_everywhere {members : List Rule} {scope : Scope}
    (each : ∀ member ∈ members, table.GivesEverywhere condition ⟨member, scope⟩)
    {schemas : List Schema} (converted : table.convertMembers members scope = .ok schemas) :
    ∀ schema ∈ schemas, schema.Everywhere condition := by
  induction members generalizing schemas with
  | nil =>
    rw [convertMembers] at converted
    cases converted
    exact List.forall_mem_nil _
  | cons member rest inductionHypothesis =>
    rcases List.forall_mem_cons.mp each with ⟨first, others⟩
    rw [convertMembers] at converted
    split at converted
    · cases converted
    · next fragment? found =>
      rcases Except.eq_ok_of_map_eq_ok converted with ⟨later, mapped, joined⟩
      have further := inductionHypothesis others mapped
      split at joined
      · cases joined
        exact List.forall_mem_cons.mpr ⟨first {} _ found, further⟩
      · cases joined
        exact further

theorem convertEntries_everywhere {fields : Entries Rule} {scope : Scope}
    (each : ∀ field ∈ fields, table.GivesEverywhere condition ⟨field.2, scope⟩)
    {converted : Entries Fragment} (succeeded : table.convertEntries fields scope = .ok converted) :
    ∀ field ∈ converted, field.2.schema.Everywhere condition := by
  induction fields generalizing converted with
  | nil =>
    rw [convertEntries] at succeeded
    cases succeeded
    exact List.forall_mem_nil _
  | cons field rest inductionHypothesis =>
    rcases List.forall_mem_cons.mp each with ⟨first, others⟩
    rw [convertEntries] at succeeded
    split at succeeded
    · cases succeeded
    · next fragment? found =>
      rcases Except.eq_ok_of_map_eq_ok succeeded with ⟨later, mapped, joined⟩
      have further := inductionHypothesis others mapped
      split at joined
      · cases joined
        exact List.forall_mem_cons.mpr ⟨first {} _ found, further⟩
      · cases joined
        exact further

/-- The fields that appear keep their names and their order. -/
theorem names_convertEntries (table : MapperTable) {fields : List (String × Rule)} {scope : Scope}
    {converted : Entries Fragment} (succeeded : table.convertEntries fields scope = .ok converted) :
    converted.names.Sublist (Entries.names fields) := by
  induction fields generalizing converted with
  | nil =>
    rw [convertEntries] at succeeded
    cases succeeded
    exact List.Sublist.slnil
  | cons field rest inductionHypothesis =>
    rcases field with ⟨name, rule⟩
    rw [convertEntries] at succeeded
    split at succeeded
    · cases succeeded
    · rcases Except.eq_ok_of_map_eq_ok succeeded with ⟨later, mapped, joined⟩
      split at joined
      · cases joined
        exact (inductionHypothesis mapped).cons_cons name
      · cases joined
        exact (inductionHypothesis mapped).cons name

/-- The schema of a kind, where the conversions that the kind asks for keep the condition. -/
theorem convertKind_everywhere (shapes : RuleCondition admits condition) {outer : Conversion}
    (admitted : admits outer.rule)
    (calls : ∀ inner, outer.Calls inner → table.GivesEverywhere condition inner) {mapper : Mapper}
    {object : SchemaObject}
    (converted : table.convertKind mapper outer.rule.kind outer.scope = .ok (some object)) :
    (Schema.inline object).Everywhere condition := by
  have inner : ∀ part ∈ outer.rule.kind.inner,
      table.GivesEverywhere condition ⟨part, outer.scope⟩ := fun part inside => calls _ (.inner inside)
  have fields : ∀ field ∈ outer.rule.kind.fields,
      table.GivesEverywhere condition ⟨field.2, .ofFields outer.rule.kind.fields⟩ :=
    fun field declared => calls _ (.field declared)
  have own := shapes.plain outer.rule
  generalize same : outer.rule.kind = kind at converted inner fields own
  unfold convertKind at converted
  split at converted
  -- A list, with the rule for its items or without one.
  · cases converted
    exact shapes.list_everywhere admitted same fun _ impossible => by cases impossible
  · next items limits =>
    rcases Except.eq_ok_of_map_eq_ok converted with ⟨fragment?, mapped, shaped⟩
    cases shaped
    have items := inner items (List.mem_singleton.mpr rfl)
    exact shapes.list_everywhere admitted same (items.of_map_schema mapped)
  -- An object, with declared fields or without any.
  · cases converted
    exact shapes.object_everywhere admitted same (List.nil_sublist _) (List.forall_mem_nil _)
  · rcases Except.eq_ok_of_map_eq_ok converted with ⟨fragments, mapped, shaped⟩
    cases shaped
    have names := table.names_convertEntries mapped
    exact shapes.object_everywhere admitted same (by rw [same]; exact names)
      (convertEntries_everywhere fields mapped)
  -- A record with a rule for its values, a tuple, and alternatives.
  · next value =>
    rcases Except.eq_ok_of_map_eq_ok converted with ⟨fragment?, mapped, shaped⟩
    cases shaped
    have value := inner value (List.mem_singleton.mpr rfl)
    exact shapes.record_everywhere (value.of_map_schema mapped)
  · rcases Except.eq_ok_of_map_eq_ok converted with ⟨schemas, mapped, shaped⟩
    cases shaped
    exact shapes.tuple_everywhere (convertMembers_everywhere inner mapped)
  · rcases Except.eq_ok_of_map_eq_ok converted with ⟨schemas, mapped, shaped⟩
    split at shaped
    · cases shaped
    · cases shaped
      exact shapes.oneOfThese_everywhere (convertMembers_everywhere inner mapped)
  -- A constant, or the sibling that stands in for it.
  · cases converted
    exact shapes.constant_everywhere admitted same
  · split at converted
    · cases converted
      exact shapes.constant_everywhere admitted same
    · next sibling reached =>
      rcases Except.eq_ok_of_map_eq_ok converted with ⟨fragment?, mapped, shaped⟩
      cases shaped
      rcases fragment? with _ | ⟨_ | found, optional⟩
      · exact shapes.constant_everywhere admitted same
      · exact shapes.constant_everywhere admitted same
      · exact calls _ (.sibling same reached) {} _ mapped
  -- Any other kind, or the kind of another mapper.
  · exact own mapper object admitted (Except.ok.inj converted)

/-- What a rule is converted to was made by a mapper of the table's own or by a function of
the caller, and is finished with what the rule says besides its kind. -/
theorem convert_eq_some {rule : Rule} {defaults : Notes} {scope : Scope} {fragment : Fragment}
    (converted : table.convert rule defaults scope = .ok (some fragment)) :
    ∃ object, fragment = rule.finish defaults object ∧
      ((∃ mapper, table.mapperFor rule.kind.tag = .ok (.own mapper) ∧
          table.convertKind mapper rule.kind scope = .ok (some object)) ∨
        ∃ map, table.mapperFor rule.kind.tag = .ok (.caller map) ∧
          map rule scope = .ok (some object)) := by
  rcases rule with ⟨kind, optional, nullable, fallback, notes⟩
  rw [convert] at converted
  split at converted
  · cases converted
  · next mapper served =>
    rcases Except.eq_ok_of_map_eq_ok converted with ⟨object?, made, finished⟩
    rcases Option.map_eq_some_iff.mp finished with ⟨object, rfl, rfl⟩
    exact ⟨object, rfl, Or.inl ⟨mapper, served, made⟩⟩
  · next map served =>
    rcases Except.eq_ok_of_map_eq_ok converted with ⟨object?, made, finished⟩
    rcases Option.map_eq_some_iff.mp finished with ⟨object, rfl, rfl⟩
    exact ⟨object, rfl, Or.inr ⟨map, served, made⟩⟩

theorem givesEverywhere_of_calls (shapes : RuleCondition admits condition)
    (callers : table.CallersSatisfy admits condition) {outer : Conversion}
    (admitted : outer.Throughout admits)
    (calls : ∀ inner, outer.Calls inner → table.GivesEverywhere condition inner) :
    table.GivesEverywhere condition outer := by
  intro defaults fragment converted
  rcases convert_eq_some converted with ⟨object, rfl, ⟨mapper, -, made⟩ | ⟨map, served, made⟩⟩
  · have inside := convertKind_everywhere shapes admitted.rule.own calls made
    exact shapes.finish_everywhere admitted.rule.own inside defaults
  · rcases exists_of_mapperFor_eq_caller served with ⟨tag, found⟩
    have inside := callers tag map found outer object admitted made
    exact shapes.finish_everywhere admitted.rule.own inside defaults

/-- What a conversion gives satisfies the condition everywhere, where its rule, all rules
inside it and all fields around it are admitted. -/
theorem givesEverywhere (shapes : RuleCondition admits condition)
    (callers : table.CallersSatisfy admits condition) (conversion : Conversion)
    (admitted : conversion.Throughout admits) : table.GivesEverywhere condition conversion := by
  induction conversion using Conversion.wellFounded_calls.induction with
  | _ outer inductionHypothesis =>
    exact givesEverywhere_of_calls shapes callers admitted fun inner called =>
      inductionHypothesis inner called (called.throughout admitted)

variable {rule : Rule} {fragment : Fragment}

theorem convert_throughout (shapes : RuleCondition admits condition)
    (callers : table.CallersSatisfy admits condition) {defaults : Notes} {scope : Scope}
    (admitted : rule.Throughout admits) (around : scope.Throughout admits)
    (converted : table.convert rule defaults scope = .ok (some fragment)) :
    fragment.schema.Everywhere condition :=
  givesEverywhere shapes callers ⟨rule, scope⟩ ⟨admitted, around⟩ defaults fragment converted

theorem convertRule_throughout (shapes : RuleCondition admits condition)
    (callers : table.CallersSatisfy admits condition) (admitted : rule.Throughout admits)
    (converted : table.convertRule rule = .ok (some fragment)) :
    fragment.schema.Everywhere condition :=
  convert_throughout shapes callers admitted
    (fun _ impossible => absurd impossible List.not_mem_nil) converted

theorem convertFields_throughout (shapes : RuleCondition admits condition)
    (callers : table.CallersSatisfy admits condition) {fields : Entries Rule}
    (admitted : ∀ field ∈ fields, field.2.Throughout admits) {fragments : Entries Fragment}
    (converted : table.convertFields fields = .ok fragments) :
    ∀ field ∈ fragments, field.2.schema.Everywhere condition := by
  apply convertEntries_everywhere _ converted
  intro field declared
  exact givesEverywhere shapes callers ⟨field.2, .ofFields fields⟩ ⟨admitted field declared, admitted⟩

/-- Where all names are allowed, a rule may be converted in any scope. -/
theorem convert_everywhere (shapes : ShapeCondition (fun _ => True) condition)
    (callers : table.CallersSatisfy (fun _ => True) condition) {defaults : Notes} {scope : Scope}
    (converted : table.convert rule defaults scope = .ok (some fragment)) :
    fragment.schema.Everywhere condition := by
  have admitted : ∀ rule : Rule, rule.Throughout fun _ => True :=
    Rule.throughout_of_forall fun _ => trivial
  exact convert_throughout shapes.ofRules callers (admitted rule) (fun field _ => admitted field.2)
    converted

variable {allowed : List String → Prop}

/-- Each converted field satisfies the condition everywhere, so it has no references. -/
theorem convertFields_everywhere (shapes : ShapeCondition allowed condition)
    (callers : table.CallersSatisfy (fun rule => allowed rule.kind.fields.names) condition)
    {fields : Entries Rule} (named : fields.FieldNames allowed) {fragments : Entries Fragment}
    (converted : table.convertFields fields = .ok fragments) :
    ∀ field ∈ fragments, field.2.schema.Everywhere condition :=
  convertFields_throughout shapes.ofRules callers
    (fun field declared => (named.parts field declared).throughout) converted

end MapperTable
end RouteDocs
