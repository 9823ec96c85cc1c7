import RouteDocs.Operation.Basic
import RouteDocs.Proofs.Operation.Liftings

namespace RouteDocs

/-!
# The components of one operation

A successful build leaves behind the record of the registrations of its
operation, and nothing else.  What holds everywhere in converted rules holds
everywhere in what the operation lifts.  In particular converted rules keep the
names of their objects apart from those of their items, whatever the table of
mappers says, so every reference in a registered object or in the operation
leads to a registered name.
-/

/-! ## Converted rules separate names -/

theorem SchemaObject.separatesNames_of_properties_nil {object : SchemaObject}
    (none : object.properties = []) : object.SeparatesNames := by
  intro named
  simp [isNamedObject, none] at named

/-- Lists, records and alternatives name no properties; objects that do have
neither items nor a schema for further properties. -/
theorem SchemaObject.separatesNames_shapes : ShapeCondition (fun _ => True) SeparatesNames where
  fewer _ _ _ _ := trivial
  plain _ _ _ := MapperTable.plainSchema_everywhere
    (fun _ none => separatesNames_of_properties_nil (properties_of_parts_nil none))
    (separatesNames_of_properties_nil rfl)
  list _ _ := separatesNames_of_properties_nil rfl
  withChoices _ _ separates := separates
  onlyChoices _ := separatesNames_of_properties_nil rfl
  object limits fields _ _ := by
    refine ⟨rfl, ?_⟩
    cases strict : limits.strict <;> simp [further?, ObjectLimits.schema, strict]
  record _ := separatesNames_of_properties_nil rfl
  tuple _ _ := separatesNames_of_properties_nil rfl
  oneOfThese _ := separatesNames_of_properties_nil rfl
  constant value strict :=
    separatesNames_of_properties_nil (properties_of_parts_nil (parts_constant value strict))
  finish _ _ _ _ _ _ separates := separates

/-- What callers' functions make is written out without references, and keeps the names of its
objects apart from those of items. -/
def MapperTable.SeparatesNames (table : MapperTable) : Prop :=
  table.CallersSatisfy (fun _ => True) SchemaObject.SeparatesNames

theorem MapperTable.separatesNames_builtin : builtin.SeparatesNames :=
  hasOwnOnly_builtin.callersSatisfy

/-- What holds of the rules of parameters and of every rule inside them. -/
def Params.Throughout (condition : Rule → Prop) (params : Params) : Prop :=
  match params with
  | .fields named _ => ∀ field ∈ named, field.2.Throughout condition
  | .root rule => rule.Throughout condition

namespace Params

variable {condition : Rule → Prop} {params : Params}

theorem Throughout.fieldRules (holds : params.Throughout condition) {fields : Entries Rule}
    {notes : Notes} (ruled : params.fieldRules? = some (fields, notes)) :
    ∀ field ∈ fields, field.2.Throughout condition := by
  cases params with
  | fields named own =>
    cases ruled
    exact holds
  | root rule =>
    simp only [fieldRules?] at ruled
    split at ruled
    · next named limits kind =>
      cases ruled
      have declared : rule.kind.fields = fields := by rw [kind]; rfl
      exact declared ▸ Rule.Throughout.fields holds
    · cases ruled

theorem throughout_of_forall (all : ∀ rule, condition rule) (params : Params) :
    params.Throughout condition := by
  cases params with
  | fields named notes => exact fun field _ => field.2.throughout_of_forall all
  | root rule => exact rule.throughout_of_forall all

end Params

/-- An operation refers to a component when one of the schemas it takes mentions it. -/
def Operation.RefersTo (operation : Operation) (target : String) : Prop :=
  ∃ schema ∈ operation.inputs.schemas, schema.Mentions target

namespace OperationContext

/-! ## What holds everywhere in what is lifted -/

/-- What makes a condition hold everywhere in the schemas that an operation
lifts: it holds of the shapes of admitted rules and of what callers' functions
make of them, all rules of the operation are admitted, and it holds of every
object of declared fields. -/
structure Guarantees (context : OperationContext) (admits : Rule → Prop)
    (condition : SchemaObject → Prop) : Prop where
  shapes : RuleCondition admits condition
  callers : context.table.CallersSatisfy admits condition
  ofParams : ∀ params ∈ context.route.params, params.Throughout admits
  ofPath : ∀ declared ∈ context.docs.pathParameters.getD [], ∀ rule ∈ declared.rule,
    rule.Throughout admits
  ofFields : ∀ params ∈ context.route.params, ∀ fields notes,
    params.fieldRules? = some (fields, notes) → ∀ shown : Entries Fragment,
      shown.names.Sublist fields.names → condition (Fragment.object shown notes)

section Everywhere

variable {context : OperationContext} {admits : Rule → Prop} {condition : SchemaObject → Prop}

theorem ruleSchema?_everywhere (shapes : RuleCondition admits condition)
    (callers : context.table.CallersSatisfy admits condition) {rule : Rule}
    (admitted : rule.Throughout admits) {schema : Schema}
    (converted : context.ruleSchema? rule = some schema) : schema.Everywhere condition := by
  unfold ruleSchema? at converted
  split at converted
  · next found =>
    cases converted
    exact MapperTable.convertRule_throughout shapes callers admitted found
  · cases converted

theorem documentedFields_everywhere (shapes : RuleCondition admits condition)
    (callers : context.table.CallersSatisfy admits condition)
    {fields : Entries Rule} (admitted : ∀ field ∈ fields, field.2.Throughout admits) :
    ∀ field ∈ context.documentedFields fields, field.2.schema.Everywhere condition := by
  intro field member
  unfold documentedFields at member
  split at member
  · next found =>
    rcases Except.eq_ok_of_map_eq_ok found with ⟨converted, mapped, rfl⟩
    exact MapperTable.convertFields_throughout shapes callers admitted mapped field
      (List.mem_filter.mp member).1
  · cases member

/-- Fields keep their names and their order; those that do not appear are left out. -/
theorem names_documentedFields (fields : Entries Rule) :
    (context.documentedFields fields).names.Sublist fields.names := by
  unfold documentedFields
  split
  · next found =>
    rcases Except.eq_ok_of_map_eq_ok found with ⟨converted, mapped, rfl⟩
    exact (List.filter_sublist.map Prod.fst).trans (context.table.names_convertEntries mapped)
  · exact List.nil_sublist _

theorem names_fieldsPlaced (place : Placement) (fields : Entries Rule) :
    (context.fieldsPlaced place fields).names.Sublist fields.names :=
  (List.filter_sublist.map Prod.fst).trans (names_documentedFields fields)

theorem queryLiftings_everywhere {fields : Entries Fragment}
    (inside : ∀ field ∈ fields, field.2.schema.Everywhere condition) :
    ∀ lifting ∈ context.queryLiftings fields, lifting.2.Everywhere condition := by
  intro lifting member
  rcases List.mem_map.mp member with ⟨field, listed, rfl⟩
  exact inside field listed

theorem bodyLiftings_everywhere {fields : Entries Fragment} {notes : Notes}
    (own : condition (Fragment.object fields notes))
    (inside : ∀ field ∈ fields, field.2.schema.Everywhere condition) :
    ∀ lifting ∈ context.bodyLiftings fields notes, lifting.2.Everywhere condition := by
  intro lifting member
  unfold bodyLiftings at member
  split at member
  · cases member
  · rcases List.mem_map.mp member with ⟨action, _, rfl⟩
    exact Fragment.everywhere_object own inside

theorem valueLiftings_everywhere (shapes : RuleCondition admits condition)
    (callers : context.table.CallersSatisfy admits condition) {rule : Rule}
    (admitted : rule.Throughout admits) :
    ∀ lifting ∈ context.valueLiftings rule, lifting.2.Everywhere condition := by
  intro lifting member
  unfold valueLiftings at member
  split at member
  · split at member
    · next converted =>
      cases List.mem_singleton.mp member
      exact ruleSchema?_everywhere shapes callers admitted converted
    · cases member
  · cases member

namespace Guarantees

theorem pathLiftings (guarantees : context.Guarantees admits condition) :
    ∀ lifting ∈ context.pathLiftings, lifting.2.Everywhere condition := by
  intro lifting member
  rcases List.mem_flatMap.mp member with ⟨declared, known, listed⟩
  unfold parameterLiftings at listed
  split at listed
  · next schema found =>
    cases List.mem_singleton.mp listed
    rcases Option.bind_eq_some_iff.mp found with ⟨rule, ruled, converted⟩
    exact ruleSchema?_everywhere guarantees.shapes guarantees.callers
      (guarantees.ofPath declared known rule ruled) converted
  · cases listed

theorem otherLiftings (guarantees : context.Guarantees admits condition) :
    ∀ lifting ∈ context.otherLiftings, lifting.2.Everywhere condition := by
  intro lifting member
  unfold OperationContext.otherLiftings at member
  split at member
  · cases member
  next params given =>
  have admitted := guarantees.ofParams params given
  -- The fields, where there are any, and their objects.
  have ruled : ∀ fields notes, params.fieldRules? = some (fields, notes) →
      ∀ field ∈ context.documentedFields fields, field.2.schema.Everywhere condition :=
    fun fields notes ruled => documentedFields_everywhere guarantees.shapes
      guarantees.callers (admitted.fieldRules ruled)
  have whole := guarantees.ofFields params given
  split at member
  · next fields notes found _ =>
    exact queryLiftings_everywhere (ruled fields notes found) lifting member
  · next fields notes _ found _ =>
    exact bodyLiftings_everywhere (whole fields notes found _ (names_documentedFields fields))
      (ruled fields notes found) lifting member
  · next fields notes found _ =>
    have placed : ∀ place, ∀ field ∈ context.fieldsPlaced place fields,
        field.2.schema.Everywhere condition := fun place field listed =>
      ruled fields notes found field (List.mem_filter.mp listed).1
    rcases List.mem_append.mp member with inQuery | inBody
    · exact queryLiftings_everywhere (placed .query) lifting inQuery
    · exact bodyLiftings_everywhere (whole fields notes found _ (names_fieldsPlaced .body fields))
        (placed .body) lifting inBody
  · split at member
    · exact valueLiftings_everywhere guarantees.shapes guarantees.callers admitted lifting member
    · cases member
  · cases member

theorem liftings (guarantees : context.Guarantees admits condition) :
    ∀ lifting ∈ context.liftings, lifting.2.Everywhere condition := by
  intro lifting member
  unfold OperationContext.liftings at member
  rcases List.mem_append.mp member with ofPath | other
  · exact guarantees.pathLiftings lifting ofPath
  · split at other
    · cases other
    · exact guarantees.otherLiftings lifting other

end Guarantees

end Everywhere

variable {context : OperationContext}

/-- All rules separate names, and so do objects of fields. -/
theorem liftings_separate (callers : context.table.SeparatesNames) :
    ∀ lifting ∈ context.liftings, lifting.2.Everywhere SchemaObject.SeparatesNames :=
  Guarantees.liftings
    { shapes := SchemaObject.separatesNames_shapes.ofRules
      callers := callers
      ofParams := fun params _ => Params.throughout_of_forall (fun _ => trivial) params
      ofPath := fun _ _ rule _ => rule.throughout_of_forall fun _ => trivial
      ofFields := fun _ _ _ _ _ _ _ _ => ⟨rfl, rfl⟩ }

/-! ## What a build registers -/

def registrations (context : OperationContext) : Registrations :=
  Schema.registrationsOf context.liftings

theorem mem_names_registrations {lifting : String × Schema} {target : String}
    (member : lifting ∈ context.liftings)
    (registered : target ∈ Entries.names (lifting.2.registrations lifting.1)) :
    target ∈ Entries.names context.registrations := by
  obtain ⟨entry, found, rfl⟩ := List.mem_map.mp registered
  exact List.mem_map_of_mem (List.mem_flatMap.mpr ⟨lifting, member, found⟩)

/-- References inside registered objects lead downwards, to registered names. -/
theorem registrations_descend (callers : context.table.SeparatesNames) :
    context.registrations.Descend (· ∈ Entries.names context.registrations) := by
  intro entry registered
  obtain ⟨lifting, member, found⟩ := List.mem_flatMap.mp registered
  have descend := Schema.registrations_descend (liftings_separate callers lifting member) lifting.1
  exact descend.imp (fun _ known => mem_names_registrations member known) entry found

theorem registered_of_drawsOn (callers : context.table.SeparatesNames) {schema : Schema}
    (draws : schema.DrawsOn context.liftings) {target : String} (mentioned : schema.Mentions target) :
    target ∈ Entries.names context.registrations := by
  obtain ⟨lifting, member, inside⟩ := draws target mentioned
  have registered := Schema.registered_of_mentions_lifted (liftings_separate callers lifting member)
    inside
  exact mem_names_registrations member registered.1

@[simp] theorem inputs_operation (context : OperationContext) (inputs : Inputs) :
    (context.operation inputs).inputs = inputs := by
  unfold operation
  cases context.route.action <;> rfl

theorem servers_operation (context : OperationContext) (inputs : Inputs) :
    (context.operation inputs).servers = context.route.server.toList := by
  unfold operation
  cases context.route.action <;> rfl

theorem claimedBy_operation (context : OperationContext) (inputs : Inputs) :
    (context.operation inputs).claimedBy = context.route.action.getD context.fullPath := by
  unfold operation
  cases context.route.action <;> rfl

/-- A build succeeds with the same parameters on every store, and leaves the
record of its registrations. -/
theorem build_eq_ok {operation : Operation} {built : Store}
    (succeeded : context.build = .ok (operation, built)) :
    ∃ inputs, operation = context.operation inputs ∧
      (∀ schema ∈ inputs.schemas, schema.DrawsOn context.liftings) ∧
      built = ({} : Store).record context.registrations := by
  unfold build at succeeded
  split at succeeded
  · next inputs store run =>
    cases succeeded
    obtain ⟨draws, yields⟩ := context.inputs_settle.yields_of_run run
    have same := run.symm.trans (yields {})
    exact ⟨inputs, rfl, draws, (Prod.mk.inj same).2⟩
  · cases succeeded

theorem mem_registrations_of_build {operation : Operation} {built : Store}
    (succeeded : context.build = .ok (operation, built)) {entry : String × SchemaObject}
    (member : entry ∈ built.components) : entry ∈ context.registrations := by
  obtain ⟨_, _, _, rfl⟩ := build_eq_ok succeeded
  rcases Store.mem_components_record member with registered | impossible
  · exact registered
  · cases impossible

end OperationContext
end RouteDocs
