import RouteDocs.Proofs.Convert.Inside
import RouteDocs.Proofs.Convert.Regular
import RouteDocs.Proofs.Schema.Rendered

namespace RouteDocs

/-!
# Where the missing value is admitted

A rule that accepts the missing value leads to a schema that carries a mark for
it, however deep the rule stands.  The earlier line of the format writes the
mark as it is.  The later line has no such mark: it names the missing value
among the types, and does so only where there is a type.  A schema without one
admits the missing value there only by an alternative that does, or by
constraining nothing.  A choice between several rules and a date that is
converted have no type, and neither has a field that is equal to one of these.
-/

namespace Json

/-- The types that a written schema names. -/
def types (schema : Json) : List Json :=
  match schema.field? "type" with
  | some (.list types) => types
  | some type => [type]
  | none => []

/-- The keys that say something about a value without constraining it. -/
def noteKeys : List String :=
  ["description", "summary", "deprecated", "default", "examples"]

def ConstrainsNothing (schema : Json) : Prop :=
  ∃ entries : Entries Json, schema = .object entries ∧ ∀ name ∈ entries.names, name ∈ noteKeys

/-- A written schema of the later line admits the missing value: it names it
among its types, offers an alternative that admits it, or constrains nothing. -/
inductive AdmitsNull : Json → Prop where
  | type {schema : Json} (named : .text "null" ∈ schema.types) : AdmitsNull schema
  | alternative {schema member : Json}
      (offered : member ∈ itemsOf (schema.field? "oneOf") ++ itemsOf (schema.field? "anyOf"))
      (admits : AdmitsNull member) : AdmitsNull schema
  | free {schema : Json} (nothing : schema.ConstrainsNothing) : AdmitsNull schema

/-- A schema that constrains nothing has no key but those for notes. -/
theorem ConstrainsNothing.field?_eq_none {schema : Json} (nothing : schema.ConstrainsNothing)
    {name : String} (constraint : name ∉ noteKeys) : schema.field? name = none := by
  obtain ⟨entries, rfl, notes⟩ := nothing
  exact Entries.get?_of_absent fun present => constraint (notes name present)

end Json

namespace SchemaObject

variable {object : SchemaObject}

theorem types_render : (object.render .v31).types =
    match object.type with
    | some type =>
      if object.nullable then [.text type.keyword, .text "null"] else [.text type.keyword]
    | none => [] := by
  rw [Json.types, field?_render_type]
  cases object.type with
  | none => rfl
  | some type => cases object.nullable <;> rfl

/-- Without a type, alternatives and allowed values only notes are written. -/
theorem constrainsNothing_render (regular : object.Regular) (untyped : object.type = none)
    (noAlternatives : object.oneOf = []) (noChoices : object.choices = none) :
    (object.render .v31).ConstrainsNothing := by
  have noted : ∀ entry ∈ object.untyped.entries .v31,
      entry.1 ∈ Json.noteKeys ∨ entry.2 = none := by
    cases examples : object.examples <;>
      simp [entries, SchemaObject.untyped, Facets.typeEntries, Facets.valueEntries,
        Facets.boundEntries, Facets.itemEntries, Facets.requiredEntries, Facets.propertyEntries,
        Facets.exampleEntries, alternatives, Schema.renderAdditional, Json.noteKeys,
        noAlternatives, noChoices, examples]
  refine ⟨_, object.render_eq .v31, fun name present => ?_⟩
  obtain ⟨⟨key, value⟩, written, rfl⟩ := List.mem_map.mp present
  have listed := Json.mem_ofOptional.mp written
  rw [regular.untyped untyped] at listed
  exact (noted _ listed).resolve_right (Option.some_ne_none value)

/-- What makes a schema admit the missing value in the later line. -/
theorem admitsNull_render_iff (regular : object.Regular) :
    (object.render .v31).AdmitsNull ↔
      (object.type.isSome = true ∧ object.nullable = true) ∨
        (∃ member ∈ object.oneOf, (member.render .v31).AdmitsNull) ∨
        (object.type = none ∧ object.oneOf = [] ∧ object.choices = none) := by
  constructor
  · intro admits
    cases admits with
    | type named =>
      rw [types_render] at named
      cases typed : object.type with
      | none =>
        rw [typed] at named
        cases named
      | some type =>
        cases nullable : object.nullable with
        | true => exact Or.inl ⟨rfl, rfl⟩
        | false =>
          have keyword : "null" = type.keyword := by simpa [typed, nullable] using named
          exact absurd keyword (by cases type <;> decide)
    | alternative offered admits =>
      rw [field?_render_oneOf, field?_render_anyOf, itemsOf_alternatives, itemsOf_alternatives,
        regular.noAnyOf, List.map_nil, List.append_nil] at offered
      obtain ⟨member, listed, rfl⟩ := List.mem_map.mp offered
      exact Or.inr (Or.inl ⟨member, listed, admits⟩)
    | free nothing =>
      have noType := nothing.field?_eq_none (by decide : "type" ∉ Json.noteKeys)
      have noOneOf := nothing.field?_eq_none (by decide : "oneOf" ∉ Json.noteKeys)
      have noEnum := nothing.field?_eq_none (by decide : "enum" ∉ Json.noteKeys)
      rw [field?_render_type, Option.map_eq_none_iff] at noType
      rw [field?_render_oneOf] at noOneOf
      rw [field?_render_enum, Option.map_eq_none_iff] at noEnum
      refine Or.inr (Or.inr ⟨noType, List.isEmpty_iff.mp ?_, noEnum⟩)
      simpa [alternatives] using noOneOf
  · rintro (⟨typed, nullable⟩ | ⟨member, listed, admits⟩ | ⟨untyped, noAlternatives, noChoices⟩)
    · obtain ⟨type, typed⟩ := Option.isSome_iff_exists.mp typed
      apply Json.AdmitsNull.type
      rw [types_render, typed, nullable]
      exact List.mem_cons_of_mem _ List.mem_cons_self
    · refine .alternative (List.mem_append_left _ ?_) admits
      rw [field?_render_oneOf, itemsOf_alternatives]
      exact List.mem_map_of_mem listed
    · exact .free (constrainsNothing_render regular untyped noAlternatives noChoices)

/-- A type without the mark and without alternatives refuses the missing value. -/
theorem not_admitsNull_render (regular : object.Regular) (typed : object.type ≠ none)
    (unmarked : object.nullable = false) (noAlternatives : object.oneOf = []) :
    ¬(object.render .v31).AdmitsNull := by
  rw [admitsNull_render_iff regular]
  simp [typed, unmarked, noAlternatives]

/-- When a schema with the mark admits the missing value in the later line. -/
theorem admitsNull_render_iff_of_nullable (regular : object.Regular)
    (nullable : object.nullable = true) :
    (object.render .v31).AdmitsNull ↔
      object.type.isSome = true ∨
        (∃ member ∈ object.oneOf, (member.render .v31).AdmitsNull) ∨
        (object.oneOf = [] ∧ object.choices = none) := by
  rw [admitsNull_render_iff regular]
  cases object.type <;> simp [nullable]

/-! ## What becomes of the mark -/

/-- The mark of a nullable object stands somewhere in a schema, at an object
that is otherwise the same but for notes, fallback and allowed values. -/
def MarkedIn (object : SchemaObject) (schema : Schema) : Prop :=
  ∃ node, .inline node ∈ schema.subschemas ∧ node.nullable = true ∧ node.bare = object.bare

/-- A mark that has been set stays, whatever is written around it. -/
theorem lasting_marked : Lasting fun node => node.nullable = true ∧ node.bare = object.bare :=
  fun _ _ same mark marked => ⟨mark marked.1, same.trans marked.2⟩

end SchemaObject

/-- However deep a nullable rule stands, what it is converted to is marked in the whole. -/
theorem Conversion.markedIn_of_calls {outer inner : Conversion} {object : SchemaObject}
    {fragment : Fragment} (within : Relation.ReflTransGen Calls outer inner)
    (nullable : inner.rule.nullable = true)
    (converted : inner.rule.fragment? {} inner.scope = some fragment)
    (inline : fragment.schema = .inline object) (defaults : Notes) :
    ∃ whole, outer.rule.fragment? defaults outer.scope = some whole ∧
      object.MarkedIn whole.schema := by
  apply somewhere_of_calls within converted object.lasting_marked _ defaults
  rw [Rule.fragment?_eq] at converted
  obtain ⟨shape, -, rfl⟩ := Option.map_eq_some_iff.mp converted
  cases inline
  exact Schema.somewhere_inline ⟨by rw [nullable, Bool.true_or], rfl⟩

namespace MapperTable

/-- What becomes of the mark for the missing value.  Every nullable rule that a
conversion asks for, at any depth, leaves its mark in the whole; every marked
schema is written inside the whole with the mark in the earlier line, and
admits the missing value in the later line exactly when it has a type, or an
alternative that admits it, or neither alternatives nor allowed values. -/
theorem nullability_is_written_iff {outer : Conversion} {defaults : Notes} {whole : Fragment}
    (converted : builtin.convert outer.rule defaults outer.scope = .ok (some whole)) :
    (∀ inner fragment object, Relation.ReflTransGen Conversion.Calls outer inner →
      inner.rule.nullable = true → builtin.convert inner.rule {} inner.scope = .ok (some fragment) →
        fragment.schema = .inline object → object.MarkedIn whole.schema) ∧
    ∀ node : SchemaObject, .inline node ∈ whole.schema.subschemas → node.nullable = true →
      (∀ version, Relation.ReflTransGen (fun outer part => part ∈ Json.schemaParts outer)
        (whole.schema.render version) (node.render version)) ∧
      (node.render .v30).field? "nullable" = some (.bool true) ∧
      ((node.render .v31).AdmitsNull ↔
        node.type.isSome = true ∨ (∃ member ∈ node.oneOf, (member.render .v31).AdmitsNull) ∨
          (node.oneOf = [] ∧ node.choices = none)) := by
  constructor
  · intro inner fragment object within nullable convertedInner inline
    rw [convert_builtin] at converted convertedInner
    obtain ⟨found, same, marked⟩ := Conversion.markedIn_of_calls within nullable
      (Except.ok.inj convertedInner) inline defaults
    rw [Except.ok.inj converted] at same
    cases same
    exact marked
  · intro node inside nullable
    obtain ⟨object, same, regular⟩ :=
      convert_everywhere SchemaObject.regular_shapes hasOwnOnly_builtin.callersSatisfy converted _
        inside
    cases same
    refine ⟨fun version => ?_, ?_, node.admitsNull_render_iff_of_nullable regular nullable⟩
    · rw [← Schema.render_inline]
      exact Schema.render_within version inside
    · rw [SchemaObject.field?_render_nullable, if_pos nullable]

/-- A list of texts, of which each may be missing. -/
theorem nullability_is_written_iff_texts :
    ∃ whole node, builtin.convertRule
        { kind := .array (some { kind := .text {}, nullable := true }) {} } = .ok (some whole) ∧
      .inline node ∈ whole.schema.subschemas ∧
      (node.render .v30).field? "nullable" = some (.bool true) ∧
      (node.render .v31).AdmitsNull := by
  let item : Rule := { kind := .text {}, nullable := true }
  let list : Rule := { kind := .array (some item) {} }
  have convertedItem : builtin.convert item {} {} =
      .ok (some (item.finish {} (TextLimits.schema {}))) := by
    rw [convert_builtin, Rule.fragment?_eq]
    rfl
  obtain ⟨whole, converted⟩ : ∃ whole, builtin.convert list {} {} = .ok (some whole) := by
    rw [convert_builtin, Rule.fragment?_eq]
    exact ⟨_, rfl⟩
  obtain ⟨marked, written⟩ :=
    @nullability_is_written_iff ⟨list, {}⟩ {} whole converted
  have within : Relation.ReflTransGen Conversion.Calls ⟨list, {}⟩ ⟨item, {}⟩ :=
    .single (.inner (List.mem_singleton_self item))
  obtain ⟨node, inside, nullable, same⟩ := marked ⟨item, {}⟩ _ _ within rfl convertedItem rfl
  obtain ⟨-, earlier, later⟩ := written node inside nullable
  have typed : node.type = some .string := congrArg (fun found : SchemaObject => found.type) same
  exact ⟨whole, node, converted, inside, earlier, later.mpr (Or.inl (by rw [typed]; rfl))⟩

/-- A nullable date that is converted is marked in the earlier line and does
not admit the missing value in the later one. -/
theorem mark_of_converted_date_is_lost :
    ∃ fragment, builtin.convertRule { kind := .date true, nullable := true } =
        .ok (some fragment) ∧
      (fragment.schema.render .v30).field? "nullable" = some (.bool true) ∧
      ¬(fragment.schema.render .v31).AdmitsNull := by
  let date : SchemaObject := { SchemaObject.date with nullable := true }
  have converted : builtin.convertRule { kind := .date true, nullable := true } =
      .ok (some { schema := .inline date, optional := false }) := by
    rw [convertRule, convert_builtin, Rule.fragment?_eq]
    rfl
  have regular : date.Regular := SchemaObject.regular_shapes.finish .date none none none true none
    SchemaObject.regular_date
  have text : ((SchemaObject.formatted "date-time").withExample Format.dateExample).Regular :=
    SchemaObject.regular_of_type (Option.some_ne_none _) rfl rfl rfl
  have number : SchemaObject.Regular
      { type := some .number, examples := [.integer Format.epochExample] } :=
    SchemaObject.regular_of_type (Option.some_ne_none _) rfl rfl rfl
  refine ⟨_, converted, SchemaObject.field?_render_nullable date, ?_⟩
  change ¬((Schema.inline date).render .v31).AdmitsNull
  rw [Schema.render_inline, SchemaObject.admitsNull_render_iff regular]
  rintro (⟨typed, -⟩ | ⟨member, listed, admits⟩ | ⟨-, noAlternatives, -⟩)
  · cases typed
  · rcases List.mem_cons.mp listed with rfl | later
    · rw [Schema.render_inline] at admits
      exact SchemaObject.not_admitsNull_render text (Option.some_ne_none _) rfl rfl admits
    · cases List.mem_singleton.mp later
      rw [Schema.render_inline] at admits
      exact SchemaObject.not_admitsNull_render number (Option.some_ne_none _) rfl rfl admits
  · cases noAlternatives

end MapperTable
end RouteDocs
