import Mathlib.Logic.Relation
import RouteDocs.Proofs.Convert.Builtin
import RouteDocs.Proofs.Convert.Everywhere

namespace RouteDocs

/-!
# What a conversion keeps of the schemas inside it

What a conversion asks for becomes a part of what it makes, or the whole of it
where a field is equal to a sibling.  On the way outwards a schema is hardly
touched: the rule around it may write notes, the mark for the missing value and
a fallback into it, and a list may write its allowed values over those of its
items.  The bare object is what is left without these.

Conditions on the bare object therefore travel in both directions.  What holds
of something a conversion asks for, at any remove, holds somewhere in the whole;
and a condition on objects with properties holds everywhere in the whole when
it holds of every object rule that is asked for.
-/

namespace SchemaObject

/-- An object without what the conversion around it may still write into it:
its notes, the mark for the missing value, the fallback and the allowed values. -/
def bare (object : SchemaObject) : SchemaObject :=
  { object with
    description := none
    summary := none
    deprecated := none
    nullable := false
    fallback := none
    choices := none }

theorem parts_eq_of_bare_eq {first second : SchemaObject} (same : second.bare = first.bare) :
    second.parts = first.parts := by
  change second.bare.parts = first.bare.parts
  rw [same]

/-- A condition that outlasts what is written into an object, the mark for the
missing value included, which is set and never taken away. -/
def Lasting (condition : SchemaObject → Prop) : Prop :=
  ∀ first second : SchemaObject, second.bare = first.bare →
    (first.nullable = true → second.nullable = true) → condition first → condition second

variable {condition : SchemaObject → Prop}

theorem lasting_of_bare (bare : ∀ object : SchemaObject, condition object.bare ↔ condition object) :
    Lasting condition := by
  intro first second same _ holds
  rw [← bare second, same, bare first]
  exact holds

end SchemaObject

namespace Schema

/-- A condition holds of some object inside a schema, at any depth. -/
def Somewhere (condition : SchemaObject → Prop) (schema : Schema) : Prop :=
  ∃ node, .inline node ∈ schema.subschemas ∧ condition node

variable {condition : SchemaObject → Prop} {schema : Schema}

theorem not_somewhere_not_of_everywhere (everywhere : schema.Everywhere condition) :
    ¬schema.Somewhere fun node => ¬condition node := by
  rintro ⟨node, inside, fails⟩
  rcases everywhere (.inline node) inside with ⟨object, same, holds⟩
  cases same
  exact fails holds

theorem somewhere_inline {node : SchemaObject} (holds : condition node) :
    (inline node).Somewhere condition := by
  refine ⟨node, ?_, holds⟩
  rw [subschemas_inline]
  exact List.mem_cons_self

namespace Somewhere

theorem of_part {outer : SchemaObject} (holds : schema.Somewhere condition)
    (member : schema ∈ outer.parts) : (inline outer).Somewhere condition := by
  rcases holds with ⟨node, inside, kept⟩
  refine ⟨node, ?_, kept⟩
  rw [subschemas_inline]
  exact List.mem_cons_of_mem _ (List.mem_flatMap.mpr ⟨schema, member, inside⟩)

/-- Writing into the outermost object changes neither its parts nor a lasting condition. -/
theorem congr {first second : SchemaObject} (holds : (inline first).Somewhere condition)
    (lasting : SchemaObject.Lasting condition) (same : second.bare = first.bare)
    (mark : first.nullable = true → second.nullable = true) :
    (inline second).Somewhere condition := by
  rcases holds with ⟨node, inside, kept⟩
  rw [subschemas_inline, List.mem_cons] at inside
  rcases inside with outermost | inside
  · cases outermost
    exact somewhere_inline (lasting first second same mark kept)
  · refine ⟨node, ?_, kept⟩
    rw [subschemas_inline, SchemaObject.parts_eq_of_bare_eq same]
    exact List.mem_cons_of_mem _ inside

theorem finish {shape : SchemaObject} (holds : (inline shape).Somewhere condition)
    (lasting : SchemaObject.Lasting condition) (rule : Rule) (defaults : Notes) :
    (rule.finish defaults shape).schema.Somewhere condition :=
  holds.congr lasting rfl fun nullable => by rw [nullable, Bool.or_true]

theorem oneOfThese {members : List Schema} (holds : schema.Somewhere condition)
    (listed : schema ∈ members) : (inline (.oneOfThese members)).Somewhere condition :=
  holds.of_part (by simp [SchemaObject.parts, SchemaObject.oneOfThese, listed])

theorem tuple {members : List Schema} (holds : schema.Somewhere condition)
    (listed : schema ∈ members) (count : Nat) :
    (inline (.tuple count members)).Somewhere condition := by
  have some : members.isEmpty = false :=
    List.isEmpty_eq_false_iff.mpr (List.ne_nil_of_mem listed)
  exact (holds.oneOfThese listed).of_part (by simp [SchemaObject.parts, SchemaObject.tuple, some])

theorem record (holds : schema.Somewhere condition) :
    (inline (.record (some schema))).Somewhere condition :=
  holds.of_part (by simp [SchemaObject.parts, SchemaObject.further?, SchemaObject.record])

/-- Allowed values are written over those of the items and nothing else. -/
theorem list {items : SchemaObject} (holds : (inline items).Somewhere condition)
    (lasting : SchemaObject.Lasting condition) (limits : ListLimits) :
    (inline (limits.schema (some (.inline items)))).Somewhere condition := by
  cases choices : limits.choices with
  | none =>
    exact holds.of_part
      (by simp [SchemaObject.parts, ListLimits.schema, ListLimits.itemSchema, choices])
  | some values =>
    have written : (inline { items with choices := some values }).Somewhere condition :=
      holds.congr lasting rfl fun nullable => nullable
    exact written.of_part
      (by simp [SchemaObject.parts, ListLimits.schema, ListLimits.itemSchema, choices])

theorem fields {fields : Entries Fragment} {name : String} {fragment : Fragment}
    (holds : fragment.schema.Somewhere condition) (listed : (name, fragment) ∈ fields)
    (limits : ObjectLimits) : (inline (limits.schema fields)).Somewhere condition := by
  have property : fragment.schema ∈ (Fragment.schemas fields).map Prod.snd :=
    List.mem_map_of_mem (List.mem_map_of_mem listed)
  exact holds.of_part (by simp [SchemaObject.parts, ObjectLimits.schema, property])

end Somewhere
end Schema

theorem Fragment.mem_schemasOf {convert : Rule → Option Fragment} {members : List Rule}
    {member : Rule} (listed : member ∈ members) {fragment : Fragment}
    (converted : convert member = some fragment) :
    fragment.schema ∈ Fragment.schemasOf convert members :=
  List.mem_filterMap.mpr ⟨member, listed, by rw [converted, Option.map_some]⟩

namespace Conversion

variable {outer inner : Conversion} {condition : SchemaObject → Prop} {fragment : Fragment}

/-! ## From the outside inwards -/

theorem Throughout.of_calls {admits : Rule → Prop} (admitted : outer.Throughout admits)
    (within : Relation.ReflTransGen Calls outer inner) : inner.Throughout admits := by
  induction within with
  | refl => exact admitted
  | tail _ called inductionHypothesis => exact called.throughout inductionHypothesis

/-! ## From the inside outwards -/

/-- The shape of a conversion has in it what it asks for. -/
theorem Calls.somewhere_shape (called : outer.Calls inner)
    (converted : inner.rule.fragment? {} inner.scope = some fragment)
    (lasting : SchemaObject.Lasting condition) (holds : fragment.schema.Somewhere condition) :
    ∃ shape, outer.rule.kind.shape? (fun part => part.fragment? {} outer.scope)
      outer.scope.fragment? = some shape ∧ (Schema.inline shape).Somewhere condition := by
  cases called with
  | @inner part inside =>
    cases kind : outer.rule.kind with
    | array items limits =>
      rw [kind] at inside
      cases Option.mem_toList.mp inside
      rcases Rule.schema_of_fragment? _ converted with ⟨found, same⟩
      rw [same] at holds
      refine ⟨limits.schema (some (.inline found)), ?_, holds.list lasting limits⟩
      simp only [RuleKind.shape?, Option.bind_some, converted, Option.map_some, same]
    | record key value =>
      rw [kind] at inside
      cases Option.mem_toList.mp inside
      refine ⟨.record (some fragment.schema), ?_, holds.record⟩
      simp only [RuleKind.shape?, Option.bind_some, converted, Option.map_some]
    | tuple members =>
      rw [kind] at inside
      have listed : fragment.schema ∈
          Fragment.schemasOf (fun part => part.fragment? {} outer.scope) members :=
        Fragment.mem_schemasOf inside converted
      exact ⟨_, rfl, holds.tuple listed members.length⟩
    | multi members =>
      rw [kind] at inside
      have listed : fragment.schema ∈
          Fragment.schemasOf (fun part => part.fragment? {} outer.scope) members :=
        Fragment.mem_schemasOf inside converted
      refine ⟨_, if_neg ?_, holds.oneOfThese listed⟩
      exact Bool.eq_false_iff.mp (List.isEmpty_eq_false_iff.mpr (List.ne_nil_of_mem listed))
    | _ =>
      rw [kind] at inside
      cases inside
  | @field name rule declared =>
    cases kind : outer.rule.kind with
    | object fields limits =>
      rw [kind] at declared converted
      have shown : (name, fragment) ∈ Fragment.ofFields (fields.getD []) :=
        Fragment.mem_ofEntries.mpr ⟨rule, declared, converted⟩
      exact ⟨limits.schema (Fragment.ofFields (fields.getD [])), rfl, holds.fields shown limits⟩
    | _ =>
      rw [kind] at declared
      cases declared
  | @sibling value name strict rule equal reached =>
    rcases Rule.schema_of_fragment? _ converted with ⟨found, same⟩
    refine ⟨found, ?_, same ▸ holds⟩
    rw [equal]
    simp only [RuleKind.shape?, Option.bind_some, Scope.fragment?_of_reached reached, converted]
    rw [same]
    rfl

/-- However far inside a conversion is asked for, what holds of its schema holds
somewhere in the whole. -/
theorem somewhere_of_calls (within : Relation.ReflTransGen Calls outer inner)
    (converted : inner.rule.fragment? {} inner.scope = some fragment)
    (lasting : SchemaObject.Lasting condition) (holds : fragment.schema.Somewhere condition)
    (defaults : Notes) :
    ∃ whole, outer.rule.fragment? defaults outer.scope = some whole ∧
      whole.schema.Somewhere condition := by
  -- Along the calls from the outside in.  Only the outermost rule is given defaults, so the
  -- hypothesis is used without any.
  induction within using Relation.ReflTransGen.head_induction_on generalizing defaults with
  | refl =>
    rw [Rule.fragment?_eq] at converted ⊢
    rcases Option.map_eq_some_iff.mp converted with ⟨shape, found, rfl⟩
    refine ⟨inner.rule.finish defaults shape, by rw [found, Option.map_some], ?_⟩
    exact holds.congr lasting rfl fun nullable => nullable
  | head called _ inductionHypothesis =>
    rcases inductionHypothesis {} with ⟨part, convertedPart, inside⟩
    rcases called.somewhere_shape convertedPart lasting inside with ⟨shape, found, shaped⟩
    rw [Rule.fragment?_eq, found]
    exact ⟨_, rfl, shaped.finish lasting _ defaults⟩

/-! ## From the object rules to everything -/

section Everywhere

variable (bare : ∀ object : SchemaObject, condition object.bare ↔ condition object)
  (withoutProperties : ∀ object : SchemaObject, object.properties = [] → condition object)

include bare withoutProperties

/-- Rules that declare no fields make objects without properties. -/
theorem ruleCondition_withoutFields :
    RuleCondition (fun rule => rule.kind.fields = []) condition where
  plain _ _ _ _ made := MapperTable.plainSchema_everywhere
    (fun object none => withoutProperties object (SchemaObject.properties_of_parts_nil none))
    (withoutProperties .date rfl) made
  list _ _ _ _ _ _ := withoutProperties _ rfl
  withChoices _ _ _ object values _ _ _ holds := (bare _).mp ((bare object).mpr holds)
  onlyChoices _ _ _ _ _ _ _ := withoutProperties _ rfl
  object _ _ _ fields none _ fewer := by
    rw [none] at fewer
    have empty : fields = [] := List.map_eq_nil_iff.mp (List.sublist_nil.mp fewer)
    exact withoutProperties _ (by rw [empty]; rfl)
  record _ := withoutProperties _ rfl
  tuple _ _ := withoutProperties _ rfl
  oneOfThese _ := withoutProperties _ rfl
  constant _ value _ strict _ _ := withoutProperties _
    (SchemaObject.properties_of_parts_nil (SchemaObject.parts_constant value strict))
  finish _ object _ _ _ _ _ holds := (bare _).mp ((bare object).mpr holds)

omit withoutProperties in
theorem everywhere_finish {shape : SchemaObject}
    (holds : (Schema.inline shape).Everywhere condition) (rule : Rule) (defaults : Notes) :
    (rule.finish defaults shape).schema.Everywhere condition := by
  rcases Schema.everywhere_inline.mp holds with ⟨own, parts⟩
  exact Schema.everywhere_inline.mpr ⟨(bare _).mp ((bare shape).mpr own), parts⟩

/-- The shape of a conversion, where the condition holds of its own fields and
everywhere in what it asks for. -/
theorem everywhere_shape
    (own : ∀ limits : ObjectLimits,
      condition (limits.schema (Fragment.ofFields outer.rule.kind.fields)))
    (inside : ∀ inner fragment, outer.Calls inner →
      inner.rule.fragment? {} inner.scope = some fragment → fragment.schema.Everywhere condition)
    {shape : SchemaObject}
    (shaped : outer.rule.kind.shape? (fun part => part.fragment? {} outer.scope)
      outer.scope.fragment? = some shape) :
    (Schema.inline shape).Everywhere condition := by
  have shapes := ruleCondition_withoutFields bare withoutProperties
  have members : ∀ schema ∈ Fragment.schemasOf (fun part => part.fragment? {} outer.scope)
      outer.rule.kind.inner, schema.Everywhere condition := by
    intro schema member
    rcases List.mem_filterMap.mp member with ⟨part, listed, found⟩
    rcases Option.map_eq_some_iff.mp found with ⟨fragment, converted, rfl⟩
    exact inside _ fragment (.inner listed) converted
  cases kind : outer.rule.kind with
  | array items limits =>
    rw [kind] at shaped members
    cases shaped
    have none : outer.rule.kind.fields = [] := by rw [kind]; rfl
    apply shapes.list_everywhere none kind
    cases items with
    | none => exact fun _ impossible => nomatch impossible
    | some item =>
      intro schema member
      exact members schema (by simpa [Fragment.schemasOf, RuleKind.inner] using member)
  | object declared limits =>
    rw [kind] at shaped own
    cases shaped
    rw [Schema.everywhere_inline, limits.parts_schema]
    refine ⟨own limits, fun part member => ?_⟩
    rcases List.mem_map.mp member with ⟨⟨name, fragment⟩, given, rfl⟩
    rcases Fragment.mem_ofEntries.mp given with ⟨rule, listed, converted⟩
    have asked : outer.Calls ⟨rule, .ofFields outer.rule.kind.fields⟩ :=
      .field (by rw [kind]; exact listed)
    exact inside _ fragment asked (by rw [kind]; exact converted)
  | record key value =>
    rw [kind] at shaped members
    cases shaped
    apply shapes.record_everywhere
    cases value with
    | none => exact fun _ impossible => nomatch impossible
    | some value =>
      intro schema member
      exact members schema (by simpa [Fragment.schemasOf, RuleKind.inner] using member)
  | tuple places =>
    rw [kind] at shaped members
    cases shaped
    exact shapes.tuple_everywhere members
  | multi choices =>
    rw [kind] at shaped members
    simp only [RuleKind.shape?] at shaped
    split at shaped
    · cases shaped
    · cases shaped
      exact shapes.oneOfThese_everywhere members
  | equal value field strict =>
    rw [kind] at shaped
    have none : outer.rule.kind.fields = [] := by rw [kind]; rfl
    have constant := shapes.constant_everywhere none kind
    cases field with
    | none =>
      cases shaped
      exact constant
    | some name =>
      rcases Rule.shape_of_equal shaped with ⟨other, found, reached, converted, same⟩ | ⟨-, rfl⟩
      · exact same ▸ inside _ found (.sibling kind reached) converted
      · exact constant
  | _ =>
    rw [kind] at shaped
    have made : outer.rule.kind.mapper.plainSchema outer.rule.kind = some shape := by
      rw [kind]
      exact shaped
    exact shapes.plain outer.rule _ shape (by rw [kind]; rfl) made

/-- A condition on bare objects that objects without properties satisfy holds
everywhere in a converted rule, when it holds of the object of the fields of
every rule that the conversion asks for, however far inside. -/
theorem everywhere_of_calls
    (objects : ∀ inner, Relation.ReflTransGen Calls outer inner → ∀ limits : ObjectLimits,
      condition (limits.schema (Fragment.ofFields inner.rule.kind.fields)))
    {defaults : Notes} {whole : Fragment}
    (converted : outer.rule.fragment? defaults outer.scope = some whole) :
    whole.schema.Everywhere condition := by
  induction outer using wellFounded_calls.induction generalizing defaults whole with
  | _ outer inductionHypothesis =>
    rw [Rule.fragment?_eq] at converted
    rcases Option.map_eq_some_iff.mp converted with ⟨shape, shaped, rfl⟩
    apply everywhere_finish bare
    apply everywhere_shape bare withoutProperties (objects outer .refl) _ shaped
    intro inner fragment called convertedInner
    exact inductionHypothesis inner called
      (fun further within => objects further (.head called within)) convertedInner

end Everywhere
end Conversion
end RouteDocs
