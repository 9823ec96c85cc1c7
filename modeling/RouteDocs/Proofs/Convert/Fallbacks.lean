import RouteDocs.Proofs.Convert.Inside

namespace RouteDocs

/-!
# Fallbacks of fields that are required

A fallback makes a field optional, and it is shown with the schema of the
field.  The two are kept apart, however: the fallback is in the schema, and the
mark of an optional field stands beside it.  A field that is equal to a sibling
takes over the schema of the sibling, its fallback included, and leaves the mark
behind.  It may thus be required although its schema has a fallback.

`Rule.Inherits` follows a fallback along such fields, and `RequiresFallback`
says of fields declared together that one of them inherits a fallback and is
not optional.  Nothing else makes a required field with a fallback.
-/

/-- The fallback that is shown with a schema. -/
def Schema.fallback? (schema : Schema) : Option Json :=
  schema.object?.bind fun object => object.fallback

/-- No property that is shown with a fallback is required. -/
def SchemaObject.FallbacksOptional (object : SchemaObject) : Prop :=
  ∀ property ∈ object.properties, property.2.fallback? ≠ none → property.1 ∉ object.required

/-- All fields that are shown with a fallback are optional. -/
def Fragment.FallbacksOptional (fragments : Entries Fragment) : Prop :=
  ∀ field ∈ fragments, field.2.schema.fallback? ≠ none → field.2.optional = true

/-! ## Rules that appear -/

namespace RuleKind

/-- Whether every rule of a kind appears in a document.  Alternatives appear only
where one of them does. -/
def alwaysAppears (kind : RuleKind) : Bool :=
  match kind with
  | .instanceOf => false
  | .custom => false
  | .forbidden => false
  | .function => false
  | .multi _ => false
  | .date converted => converted
  | _ => true

variable {kind : RuleKind} {inner : Rule → Option Fragment} {sibling : String → Option Fragment}

theorem exists_shape (always : kind.alwaysAppears = true) :
    ∃ object, kind.shape? inner sibling = some object := by
  cases kind with
  | instanceOf | custom | forbidden | function | multi => cases always
  | date converted =>
    cases converted with
    | false => cases always
    | true => exact ⟨_, rfl⟩
  | _ => exact ⟨_, rfl⟩

theorem alwaysAppears_of_shape {object : SchemaObject}
    (shaped : kind.shape? inner sibling = some object) (single : ∀ members, kind ≠ .multi members) :
    kind.alwaysAppears = true := by
  cases kind with
  | instanceOf | custom | forbidden | function => cases shaped
  | multi members => exact absurd rfl (single members)
  | date converted =>
    cases converted with
    | false => cases shaped
    | true => rfl
  | _ => rfl

end RuleKind

namespace Rule

/-- A rule appears in a document by its kind, or as alternatives of which one appears. -/
inductive Appears : Rule → Prop where
  | always {rule : Rule} (kind : rule.kind.alwaysAppears = true) : Appears rule
  | alternative {rule member : Rule} {members : List Rule} (kind : rule.kind = .multi members)
    (listed : member ∈ members) (appears : Appears member) : Appears rule

variable {rule : Rule} {defaults : Notes} {scope : Scope} {fragment : Fragment}

theorem Appears.exists_fragment (appears : rule.Appears) (defaults : Notes) (scope : Scope) :
    ∃ fragment, rule.fragment? defaults scope = some fragment := by
  induction appears generalizing defaults with
  | always kind =>
    rcases RuleKind.exists_shape kind with ⟨shape, shaped⟩
    rw [fragment?_eq, shaped]
    exact ⟨_, rfl⟩
  | @alternative rule member members kind listed _ inductionHypothesis =>
    rcases inductionHypothesis {} with ⟨part, converted⟩
    have shown : part.schema ∈ Fragment.schemasOf (fun part => part.fragment? {} scope) members :=
      Fragment.mem_schemasOf listed converted
    rw [fragment?_eq, kind, RuleKind.shape?, if_neg fun none => ?_]
    · exact ⟨_, rfl⟩
    · exact List.ne_nil_of_mem shown (List.isEmpty_iff.mp none)

theorem appears_of_fragment? (converted : rule.fragment? defaults scope = some fragment) :
    rule.Appears := by
  induction rule using inductionOnParts generalizing defaults fragment with
  | step rule inductionHypothesis =>
    rw [fragment?_eq] at converted
    rcases Option.map_eq_some_iff.mp converted with ⟨shape, shaped, -⟩
    by_cases choice : ∃ members, rule.kind = .multi members
    · rcases choice with ⟨members, kind⟩
      rw [kind, RuleKind.shape?] at shaped
      split at shaped
      · cases shaped
      · next some =>
        rcases List.exists_mem_of_ne_nil _ (mt List.isEmpty_iff.mpr some) with ⟨schema, shown⟩
        rcases List.mem_filterMap.mp shown with ⟨member, listed, found⟩
        rcases Option.map_eq_some_iff.mp found with ⟨part, convertedPart, -⟩
        have inside := RuleKind.mem_parts_of_multi kind listed
        exact .alternative kind listed (inductionHypothesis member inside convertedPart)
    · have single : ∀ members, rule.kind ≠ .multi members :=
        fun members kind => choice ⟨members, kind⟩
      exact .always (RuleKind.alwaysAppears_of_shape shaped single)

end Rule

/-! ## Where a fallback comes from -/

namespace SchemaObject

theorem fallback_plain : PlainCondition fun object => object.fallback = none where
  any := rfl
  typed _ := rfl
  number _ := rfl
  text _ := rfl
  record := rfl
  formatted _ _ := rfl
  patterned _ _ := rfl
  uuid _ := rfl
  currency _ := rfl
  date := rfl

theorem fallback_constant (value : Option Json) (strict : Bool) :
    (constant value strict).fallback = none :=
  constant_cases rfl (fun _ => rfl) (fun _ => rfl) value strict

end SchemaObject

/-- The shape of a kind has no fallback, unless it is that of a sibling. -/
theorem RuleKind.fallback_shape {kind : RuleKind} {inner : Rule → Option Fragment}
    {sibling : String → Option Fragment} {object : SchemaObject}
    (shaped : kind.shape? inner sibling = some object)
    (alone : ∀ value name strict, kind ≠ .equal value (some name) strict) :
    object.fallback = none := by
  cases kind with
  | array | object | record | tuple => cases shaped; rfl
  | multi members =>
    simp only [shape?] at shaped
    split at shaped <;> cases shaped
    rfl
  | equal value field strict =>
    cases field with
    | none => cases shaped; exact SchemaObject.fallback_constant value strict
    | some name => exact absurd rfl (alone value name strict)
  | _ =>
    simp only [shape?] at shaped
    exact SchemaObject.fallback_plain.of_plainSchema shaped

/-- A shape has the fallback of the sibling that it is taken from, and no other. -/
theorem Rule.fallback_shape_eq_some_iff {rule : Rule} {scope : Scope} {shape : SchemaObject}
    {fallback : Json}
    (shaped : rule.kind.shape? (fun part => part.fragment? {} scope) scope.fragment? = some shape) :
    shape.fallback = some fallback ↔
      ∃ value name strict other found, rule.kind = .equal value (some name) strict ∧
        scope.reachable? name = some other ∧ other.fragment? {} (scope.enter name) = some found ∧
          found.schema.fallback? = some fallback := by
  constructor
  · intro shown
    by_cases alone : ∀ value name strict, rule.kind ≠ .equal value (some name) strict
    · rw [RuleKind.fallback_shape shaped alone] at shown
      cases shown
    · simp only [ne_eq, not_forall, not_not] at alone
      rcases alone with ⟨value, name, strict, equal⟩
      rw [equal] at shaped
      rcases shape_of_equal shaped with ⟨other, found, reached, converted, same⟩ | ⟨-, rfl⟩
      · exact ⟨value, name, strict, other, found, equal, reached, converted, same ▸ shown⟩
      · rw [SchemaObject.fallback_constant] at shown
        cases shown
  · rintro ⟨value, name, strict, other, found, equal, reached, converted, shown⟩
    rw [equal] at shaped
    rcases shape_of_equal shaped with ⟨_, _, alsoReached, alsoConverted, same⟩ | ⟨unreached, -⟩
    · cases reached.symm.trans alsoReached
      cases converted.symm.trans alsoConverted
      rw [same] at shown
      exact shown
    · rw [Scope.fragment?_of_reached reached, converted] at unreached
      cases unreached

namespace Rule

/-- The fallback that is shown with a rule is its own, or that of the sibling to
which the rule is equal, where this appears. -/
inductive Inherits (fallback : Json) : Rule → Scope → Prop where
  | own {rule : Rule} {scope : Scope} (set : rule.fallback = some fallback) :
    Inherits fallback rule scope
  | sibling {rule other : Rule} {scope : Scope} {value : Option Json} {name : String}
    {strict : Bool} (unset : rule.fallback = none)
    (equal : rule.kind = .equal value (some name) strict)
    (reached : scope.reachable? name = some other) (appears : other.Appears)
    (inherits : Inherits fallback other (scope.enter name)) : Inherits fallback rule scope

variable {rule : Rule} {scope : Scope} {fragment : Fragment} {fallback : Json}

theorem inherits_iff_of_set {own : Json} (set : rule.fallback = some own) :
    rule.Inherits fallback scope ↔ own = fallback := by
  constructor
  · intro inherits
    cases inherits with
    | own same => exact Option.some.inj (set.symm.trans same)
    | sibling unset => exact absurd (set.symm.trans unset) (Option.some_ne_none own)
  · rintro rfl
    exact .own set

theorem inherits_iff_of_unset (unset : rule.fallback = none) :
    rule.Inherits fallback scope ↔
      ∃ value name strict other, rule.kind = .equal value (some name) strict ∧
        scope.reachable? name = some other ∧ other.Appears ∧
          other.Inherits fallback (scope.enter name) := by
  constructor
  · intro inherits
    cases inherits with
    | own set => exact absurd (unset.symm.trans set) (Option.some_ne_none fallback).symm
    | sibling _ equal reached appears inherits =>
      exact ⟨_, _, _, _, equal, reached, appears, inherits⟩
  · rintro ⟨value, name, strict, other, equal, reached, appears, inherits⟩
    exact .sibling unset equal reached appears inherits

/-- What is shown with a converted rule is what the rule inherits. -/
theorem fallback?_eq_some_iff {defaults : Notes}
    (converted : rule.fragment? defaults scope = some fragment) :
    fragment.schema.fallback? = some fallback ↔ rule.Inherits fallback scope := by
  -- Along the calls of the conversion: a sibling may be larger than the rule.
  have general : ∀ (conversion : Conversion) (defaults : Notes) (fragment : Fragment),
      conversion.rule.fragment? defaults conversion.scope = some fragment →
        (fragment.schema.fallback? = some fallback ↔
          conversion.rule.Inherits fallback conversion.scope) := by
    intro conversion
    apply Conversion.wellFounded_calls.induction conversion
    rintro ⟨rule, scope⟩ inductionHypothesis defaults fragment converted
    rw [fragment?_eq] at converted
    rcases Option.map_eq_some_iff.mp converted with ⟨shape, shaped, rfl⟩
    change rule.fallback.or shape.fallback = some fallback ↔ rule.Inherits fallback scope
    cases own : rule.fallback with
    | some set => rw [Option.some_or, inherits_iff_of_set own, Option.some.injEq]
    | none =>
      rw [Option.none_or, fallback_shape_eq_some_iff shaped, inherits_iff_of_unset own]
      constructor
      · rintro ⟨value, name, strict, other, found, equal, reached, converted, shown⟩
        have step := inductionHypothesis _ (.sibling equal reached) {} found converted
        exact ⟨value, name, strict, other, equal, reached, appears_of_fragment? converted,
          step.mp shown⟩
      · rintro ⟨value, name, strict, other, equal, reached, appears, inherits⟩
        rcases appears.exists_fragment {} (scope.enter name) with ⟨found, converted⟩
        have step := inductionHypothesis _ (.sibling equal reached) {} found converted
        exact ⟨value, name, strict, other, found, equal, reached, converted, step.mpr inherits⟩
  exact general ⟨rule, scope⟩ defaults fragment converted

/-- Only a rule that is equal to a sibling inherits a fallback without being optional. -/
theorem Inherits.appears (inherits : rule.Inherits fallback scope)
    (required : rule.isOptional = false) : rule.Appears := by
  cases inherits with
  | own set => simp [isOptional, set] at required
  | sibling _ equal => exact .always (by rw [equal]; rfl)

theorem optional_of_fragment? {defaults : Notes}
    (converted : rule.fragment? defaults scope = some fragment) :
    fragment.optional = rule.isOptional := by
  rw [fragment?_eq] at converted
  rcases Option.map_eq_some_iff.mp converted with ⟨shape, -, rfl⟩
  rfl

end Rule

/-- A rule that declares fields makes the object of these. -/
theorem Rule.fragment?_of_fields (rule : Rule) (some : rule.kind.fields ≠ []) (defaults : Notes)
    (scope : Scope) :
    ∃ limits : ObjectLimits, rule.fragment? defaults scope =
      .some (rule.finish defaults (limits.schema (Fragment.ofFields rule.kind.fields))) := by
  cases kind : rule.kind with
  | object declared limits =>
    refine ⟨limits, ?_⟩
    rw [fragment?_eq, kind]
    rfl
  | _ => exact absurd (by rw [kind]; rfl) some

/-! ## Fields that are required and shown with a fallback -/

/-- A field that is not optional inherits a fallback. -/
def Entries.RequiresFallback (fields : Entries Rule) : Prop :=
  ∃ field ∈ fields, field.2.isOptional = false ∧
    ∃ fallback, field.2.Inherits fallback (.ofFields fields)

theorem Fragment.fallbacksOptional_ofFields_iff (fields : Entries Rule) :
    FallbacksOptional (ofFields fields) ↔ ¬fields.RequiresFallback := by
  constructor
  · rintro optional ⟨⟨name, rule⟩, declared, required, fallback, inherits⟩
    rcases (inherits.appears required).exists_fragment {} (.ofFields fields) with
      ⟨fragment, converted⟩
    have shown := (Rule.fallback?_eq_some_iff converted).mpr inherits
    have marked := optional (name, fragment) (mem_ofEntries.mpr ⟨rule, declared, converted⟩)
      (shown ▸ Option.some_ne_none fallback)
    rw [Rule.optional_of_fragment? converted, required] at marked
    cases marked
  · rintro none ⟨name, fragment⟩ member shown
    rcases mem_ofEntries.mp member with ⟨rule, declared, converted⟩
    rcases Option.ne_none_iff_exists'.mp shown with ⟨fallback, same⟩
    by_contra required
    rw [Rule.optional_of_fragment? converted, Bool.not_eq_true] at required
    exact none ⟨(name, rule), declared, required, fallback,
      (Rule.fallback?_eq_some_iff converted).mp same⟩

namespace ObjectLimits

variable {fragments : Entries Fragment}

theorem fallbacksOptional_of_schema {limits : ObjectLimits}
    (optional : (limits.schema fragments).FallbacksOptional) :
    Fragment.FallbacksOptional fragments := by
  intro field member shown
  have property : (field.1, field.2.schema) ∈ Fragment.schemas fragments :=
    List.mem_map_of_mem member
  by_contra required
  rw [Bool.not_eq_true] at required
  have listed : field.1 ∈ Fragment.requiredNames fragments :=
    List.mem_map_of_mem (List.mem_filter.mpr ⟨member, by rw [required]; rfl⟩)
  exact optional _ property shown listed

/-- Where names are distinct, a name is required for the field that has it. -/
theorem fallbacksOptional_schema (limits : ObjectLimits) (distinct : fragments.names.Nodup)
    (optional : Fragment.FallbacksOptional fragments) :
    (limits.schema fragments).FallbacksOptional := by
  intro property listed shown required
  rcases List.mem_map.mp listed with ⟨field, member, rfl⟩
  rcases List.mem_map.mp required with ⟨other, kept, sameName⟩
  rcases List.mem_filter.mp kept with ⟨declared, unmarked⟩
  have same : other = field := List.inj_on_of_nodup_map distinct declared member sameName
  rw [same, optional field member shown] at unmarked
  cases unmarked

end ObjectLimits

namespace Conversion

variable {outer inner : Conversion}

/-- However far inside a field is required that inherits a fallback, it is seen
in the whole. -/
theorem somewhere_of_requiresFallback (within : Relation.ReflTransGen Calls outer inner)
    (requires : inner.rule.kind.fields.RequiresFallback) (defaults : Notes) :
    ∃ whole, outer.rule.fragment? defaults outer.scope = some whole ∧
      whole.schema.Somewhere fun object => ¬object.FallbacksOptional := by
  have lasting : SchemaObject.Lasting fun object => ¬object.FallbacksOptional :=
    SchemaObject.lasting_of_bare fun _ => Iff.rfl
  have some : inner.rule.kind.fields ≠ [] := List.ne_nil_of_mem requires.choose_spec.1
  rcases inner.rule.fragment?_of_fields some {} inner.scope with ⟨limits, converted⟩
  have fails : ¬(limits.schema (Fragment.ofFields inner.rule.kind.fields)).FallbacksOptional :=
    fun optional => (Fragment.fallbacksOptional_ofFields_iff _).mp
      (ObjectLimits.fallbacksOptional_of_schema optional) requires
  exact somewhere_of_calls within converted lasting
    ((Schema.somewhere_inline fails).finish lasting inner.rule {}) defaults

theorem everywhere_of_not_requiresFallback
    (distinct : outer.Throughout fun rule => rule.kind.fields.names.Nodup)
    (none : ∀ inner, Relation.ReflTransGen Calls outer inner →
      ¬inner.rule.kind.fields.RequiresFallback) {defaults : Notes} {whole : Fragment}
    (converted : outer.rule.fragment? defaults outer.scope = some whole) :
    whole.schema.Everywhere SchemaObject.FallbacksOptional := by
  apply everywhere_of_calls (fun _ => Iff.rfl) _ _ converted
  · intro object noProperties property listed
    rw [noProperties] at listed
    cases listed
  · intro inner within limits
    have names := (distinct.of_calls within).rule.own.sublist
      (MapperTable.names_convertEntries _
        (MapperTable.convertFields_builtin inner.rule.kind.fields))
    exact limits.fallbacksOptional_schema names
      ((Fragment.fallbacksOptional_ofFields_iff _).mpr (none inner within))

end Conversion

/-- When fields that are shown with a fallback are optional.  Among converted
fields they are, unless one of the fields is not optional and inherits a
fallback from a sibling; and inside a converted rule they are, at every depth,
unless the conversion asks for an object rule with such a field. -/
theorem MapperTable.fallbacks_are_optional_iff (fields : Entries Rule) :
    (∃ fragments, builtin.convertFields fields = .ok fragments ∧
      (Fragment.FallbacksOptional fragments ↔ ¬fields.RequiresFallback)) ∧
    ∀ (outer : Conversion) (defaults : Notes) (whole : Fragment),
      outer.rule.FieldNames List.Nodup → outer.scope.siblings.FieldNames List.Nodup →
        builtin.convert outer.rule defaults outer.scope = .ok (some whole) →
          (whole.schema.Everywhere SchemaObject.FallbacksOptional ↔
            ∀ inner, Relation.ReflTransGen Conversion.Calls outer inner →
              ¬inner.rule.kind.fields.RequiresFallback) := by
  refine ⟨⟨_, convertFields_builtin fields, Fragment.fallbacksOptional_ofFields_iff fields⟩, ?_⟩
  intro outer defaults whole distinct around converted
  rw [convert_builtin, Except.ok.injEq] at converted
  constructor
  · intro everywhere inner within requires
    rcases Conversion.somewhere_of_requiresFallback within requires defaults with
      ⟨found, same, somewhere⟩
    cases converted.symm.trans same
    exact Schema.not_somewhere_not_of_everywhere everywhere somewhere
  · intro none
    exact Conversion.everywhere_of_not_requiresFallback
      ⟨distinct.throughout, fun field declared => (around.parts field declared).throughout⟩
      none converted

/-! ## A nickname that is the name -/

/-- A name with a fallback, and a nickname that is equal to the name. -/
def Rule.nickname (optional : Bool) : Entries Rule :=
  [("name", { Rule.text with fallback := some (.text "guest") }),
    ("nickname", { Rule.sameAs "name" with optional := optional })]

theorem Rule.fieldNames_nickname (optional : Bool) :
    (nickname optional).FieldNames List.Nodup := by
  have leaf : ∀ field ∈ nickname optional, field.2.FieldNames List.Nodup :=
    List.forall_mem_cons.mpr ⟨fieldNames_of_parts_nil List.nodup_nil rfl,
      List.forall_mem_singleton.mpr (fieldNames_of_parts_nil List.nodup_nil rfl)⟩
  have names : (nickname optional).names.Nodup := (by decide : ["name", "nickname"].Nodup)
  exact ⟨names, leaf⟩

namespace MapperTable

/-- A nickname that may be left out. -/
theorem fallbacks_are_optional_iff_nickname :
    ((Rule.object (Rule.nickname true)).FieldNames List.Nodup ∧
      Entries.FieldNames List.Nodup ({} : Scope).siblings) ∧
      (∃ fragments, builtin.convertFields (Rule.nickname true) = .ok fragments ∧
        Fragment.FallbacksOptional fragments) ∧
      ∃ whole, builtin.convertRule (.object (Rule.nickname true)) = .ok (some whole) ∧
        whole.schema.Everywhere SchemaObject.FallbacksOptional := by
  have distinct := Rule.fieldNames_object (Rule.fieldNames_nickname true)
  have around : Entries.FieldNames List.Nodup ({} : Scope).siblings :=
    ⟨List.nodup_nil, List.forall_mem_nil _⟩
  obtain ⟨whole, converted⟩ : ∃ whole,
      builtin.convert (.object (Rule.nickname true)) {} {} = .ok (some whole) := by
    rw [convert_builtin, Rule.fragment?_object]
    exact ⟨_, rfl⟩
  -- Every field is optional here, so none that is asked for is required.
  have optional : (Conversion.mk (.object (Rule.nickname true)) {}).Throughout fun rule =>
      ∀ field ∈ rule.kind.fields, field.2.isOptional = true := by
    refine ⟨.intro ?_ (List.forall_mem_cons.mpr ⟨?_, List.forall_mem_singleton.mpr ?_⟩),
      List.forall_mem_nil _⟩
    · exact List.forall_mem_cons.mpr ⟨rfl, List.forall_mem_singleton.mpr rfl⟩
    · exact .intro (List.forall_mem_nil _) (List.forall_mem_nil _)
    · exact .intro (List.forall_mem_nil _) (List.forall_mem_nil _)
  have none : ∀ inner, Relation.ReflTransGen Conversion.Calls
      ⟨.object (Rule.nickname true), {}⟩ inner → ¬inner.rule.kind.fields.RequiresFallback := by
    rintro inner within ⟨field, declared, required, -⟩
    rw [(optional.of_calls within).rule.own field declared] at required
    cases required
  rcases fallbacks_are_optional_iff (Rule.nickname true) with
    ⟨⟨fragments, made, amongFields⟩, inside⟩
  exact ⟨⟨distinct, around⟩, ⟨fragments, made, amongFields.mpr (none _ .refl)⟩, whole, converted,
    (inside ⟨_, _⟩ {} whole distinct around converted).mpr none⟩

/-- A nickname that is required is shown with the fallback of the name. -/
theorem fallback_of_sibling_is_required :
    (∃ whole, builtin.convertRule (.object (Rule.nickname false)) = .ok (some whole) ∧
      ¬whole.schema.Everywhere SchemaObject.FallbacksOptional) ∧
    ∃ fragments, builtin.convertFields (Rule.nickname false) = .ok fragments ∧
      ¬Fragment.FallbacksOptional fragments := by
  have requires : (Rule.nickname false).RequiresFallback := by
    refine ⟨("nickname", _), List.mem_cons_of_mem _ List.mem_cons_self, rfl, .text "guest", ?_⟩
    exact .sibling rfl rfl rfl (.always rfl) (.own rfl)
  constructor
  · have within : Relation.ReflTransGen Conversion.Calls
        ⟨.object (Rule.nickname false), {}⟩ ⟨.object (Rule.nickname false), {}⟩ := .refl
    rcases Conversion.somewhere_of_requiresFallback within requires {} with
      ⟨whole, converted, somewhere⟩
    refine ⟨whole, ?_, fun everywhere => ?_⟩
    · rw [convertRule, convert_builtin, converted]
    · exact Schema.not_somewhere_not_of_everywhere everywhere somewhere
  · exact ⟨_, convertFields_builtin _,
      fun optional => (Fragment.fallbacksOptional_ofFields_iff _).mp optional requires⟩

end MapperTable
end RouteDocs
