import RouteDocs.Proofs.Operation.Building

namespace RouteDocs

/-!
# Object rules and the object of their fields

The fields of an object rule become a component in one of two ways.  Either the
whole rule is converted and its schema is lifted, or the fields are converted
and registered as one object.  An object rule without limits gives the same
component in both ways, because its schema is the object of its fields.

What else an object rule says is laid over this object by its conversion only.
An ordinary route takes a root object rule apart into its fields, so it stores
the object without the rest: `root_object_component_iff` says which rules lose
nothing by this.  A rule for one value of another kind, and an object rule
inside another rule, are converted as a whole and keep what they say.
-/

/-- What an object rule says besides its fields and its notes, laid over an object. -/
def Rule.constrain (rule : Rule) (limits : ObjectLimits) (object : SchemaObject) : SchemaObject :=
  { object with
    additional := if limits.strict then some (.allowed false) else none
    minProperties := limits.minProps
    maxProperties := limits.maxProps
    nullable := rule.nullable
    fallback := rule.fallback }

/-- An object rule that says nothing besides its fields, its notes and whether
its value may be left out. -/
structure Rule.Unconstrained (rule : Rule) (limits : ObjectLimits) : Prop where
  lenient : limits.strict = false
  noLeast : limits.minProps = none
  noMost : limits.maxProps = none
  present : rule.nullable = false
  noFallback : rule.fallback = none

namespace MapperTable

/-- At least one of the fields appears in the document. -/
def Documents (table : MapperTable) (fields : Entries Rule) : Prop :=
  ∃ field ∈ fields, (table.shown? (.ofFields fields) field).isSome = true

variable {table : MapperTable} {fields : Entries Rule} {converted : Entries Fragment}

theorem documents_iff (succeeded : table.convertFields fields = .ok converted) :
    table.Documents fields ↔ converted.isEmpty = false := by
  rw [table.convertEntries_eq_ok succeeded, List.isEmpty_eq_false_iff, ne_eq,
    List.filterMap_eq_nil_iff, Documents]
  simp only [Option.isSome_iff_ne_none, not_forall, exists_prop, ne_eq]

end MapperTable

/-! ## The schema of an object rule -/

namespace Rule

variable (rule : Rule) (limits : ObjectLimits)

theorem finish_object (fields : Entries Fragment) :
    (rule.finish {} (limits.schema fields)).schema =
      .inline (rule.constrain limits (Fragment.object fields rule.notes)) := by
  simp only [finish, ObjectLimits.schema, Notes.inherit, Option.or_none, Bool.or_false, constrain,
    Fragment.object]

variable {rule limits}

theorem isNamedObject_constrain {object : SchemaObject} (named : object.isNamedObject = true) :
    (rule.constrain limits object).isNamedObject = true := named

theorem constrain_of_unconstrained (unconstrained : rule.Unconstrained limits)
    (fields : Entries Fragment) (notes : Notes) :
    rule.constrain limits (Fragment.object fields notes) = Fragment.object fields notes := by
  simp only [constrain, unconstrained.lenient, unconstrained.noLeast, unconstrained.noMost,
    unconstrained.present, unconstrained.noFallback, Bool.false_eq_true, if_false, Fragment.object]

/-- Lifting goes past what is laid over an object. -/
theorem lifted_constrain (object : SchemaObject) (name : String) :
    (rule.constrain limits object).lifted name = rule.constrain limits (object.lifted name) := by
  simp only [constrain, SchemaObject.lifted]
  cases limits.strict <;> rfl

/-- What is laid over the object of fields shows, unless it is nothing. -/
theorem constrain_lifted_eq_iff (fields : Entries Fragment) (notes : Notes) (name : String) :
    rule.constrain limits ((Fragment.object fields notes).lifted name) =
        (Fragment.object fields notes).lifted name ↔
      rule.Unconstrained limits := by
  constructor
  · intro same
    have additional : (if limits.strict then some (Additional.allowed false) else none) = none :=
      congrArg SchemaObject.additional same
    refine ⟨?_, congrArg (fun object => object.minProperties) same,
      congrArg (fun object => object.maxProperties) same,
      congrArg (fun object => object.nullable) same,
      congrArg (fun object => object.fallback) same⟩
    cases strict : limits.strict with
    | false => rfl
    | true =>
      rw [strict] at additional
      cases additional
  · intro unconstrained
    rw [← lifted_constrain, constrain_of_unconstrained unconstrained]

end Rule

namespace MapperTable

variable {table : MapperTable} {fields : Entries Rule} {converted : Entries Fragment}

/-- The schema of an object rule is the object of its fields, with everything
else that the rule says laid over it. -/
theorem convertRule_object {rule : Rule} {limits : ObjectLimits}
    (objects : table.mapperFor .object = .ok (.own .object))
    (kind : rule.kind = .object (some fields) limits)
    (succeeded : table.convertFields fields = .ok converted) :
    table.convertRule rule = .ok (some (rule.finish {} (limits.schema converted))) := by
  rcases rule with ⟨_, optional, nullable, fallback, notes⟩
  obtain rfl := kind
  have entries : table.convertEntries fields (.ofFields fields) = .ok converted := succeeded
  rw [convertRule, convert]
  simp only [RuleKind.tag, objects, convertKind, entries, Except.map, Option.map_some]

/-- Without any field, registering and lifting differ: the object is not lifted out of its
place.  Therefore the next theorem asks for a field that appears (`Documents`). -/
theorem registerObject_nil_ne_lift (notes : Notes) (name : String) (store : Store) :
    store.registerObject name [] notes ≠
      Store.lift (.inline (Fragment.object [] notes)) name store := by
  intro same
  have reference : Schema.ref name = (Schema.inline (Fragment.object [] notes)).lifted name := by
    rw [Store.registerObject_eq_record, Store.lift_eq] at same
    exact congrArg Prod.fst same
  rw [Schema.lifted_inline] at reference
  cases reference

/-- Registering the fields of an object and lifting the object rule that has just
these fields and notes are the same, if any of the fields appears in the
document: on every store they return the same reference and leave the same
components, in the same order, and the same warnings. -/
theorem registering_fields_is_lifting_their_object (fields : Entries Rule) (notes : Notes) :
    (∃ converted, builtin.convertFields fields = .ok converted) ∧
    ∀ (table : MapperTable) (converted : Entries Fragment),
      table.mapperFor .object = .ok (.own .object) → table.convertFields fields = .ok converted →
      table.Documents fields →
      ∃ fragment,
        table.convertRule { Rule.object fields with notes := notes } = .ok (some fragment) ∧
        ∀ (name : String) (store : Store),
          store.registerObject name converted notes = Store.lift fragment.schema name store ∧
          (Store.lift fragment.schema name store).1 = .ref name := by
  refine ⟨⟨_, convertFields_builtin fields⟩, fun table converted objects succeeded documents => ?_⟩
  have present := (documents_iff succeeded).mp documents
  let rule : Rule := { Rule.object fields with notes := notes }
  have plain : rule.Unconstrained {} := ⟨rfl, rfl, rfl, rfl, rfl⟩
  have shaped : (rule.finish {} (ObjectLimits.schema {} converted)).schema =
      .inline (Fragment.object converted notes) := by
    rw [Rule.finish_object, Rule.constrain_of_unconstrained plain]
  refine ⟨_, convertRule_object objects rfl succeeded, fun name store => ?_⟩
  rw [shaped, Store.registerObject_eq present, Store.lift_eq, Schema.lifted_inline,
    if_pos (Fragment.isNamedObject_object notes present)]
  exact ⟨rfl, rfl⟩

/-- An order within a field, and a field that is equal to it. -/
theorem registering_fields_is_lifting_their_object_order :
    let fields : Entries Rule := [("order", .object Rule.order), ("again", .sameAs "order")]
    ∃ converted fragment, builtin.convertFields fields = .ok converted ∧
      builtin.convertRule (.object fields) = .ok (some fragment) ∧
      ({} : Store).registerObject "Cart" converted {} = Store.lift fragment.schema "Cart" {} := by
  intro fields
  have documents : builtin.Documents fields := by
    refine ⟨_, List.mem_cons_self, ?_⟩
    rw [shown?, convert_builtin, Rule.fragment?_object]
    rfl
  obtain ⟨converted, succeeded⟩ := (registering_fields_is_lifting_their_object fields {}).1
  obtain ⟨fragment, lifts, same⟩ := (registering_fields_is_lifting_their_object fields {}).2
    builtin converted rfl succeeded documents
  exact ⟨converted, fragment, succeeded, lifts, (same "Cart" {}).1⟩

end MapperTable

/-! ## Root objects of ordinary routes -/

namespace OperationContext

variable {context : OperationContext} {fields : Entries Rule}

theorem documentedFields_builtin (builtin : context.table = .builtin)
    (plain : context.placeholders = []) :
    context.documentedFields fields = Fragment.ofFields fields := by
  have outside : context.fieldsOutsidePath fields = .ok (Fragment.ofFields fields) :=
    fieldsOutsidePath_of_plain plain (builtin ▸ MapperTable.convertFields_builtin fields)
  rw [documentedFields, outside]

/-- A method that sends a body sends all fields that nothing puts elsewhere. -/
theorem fieldsPlaced_of_sendsBody (sends : context.sendsBody = true)
    (unplaced : context.docs.parameterLocations = []) (place : Placement) :
    context.fieldsPlaced place fields =
      if place = .body then context.documentedFields fields else [] := by
  have anywhere : ∀ name, context.placement name = .body := by
    intro name
    rw [placement, unplaced, sends]
    rfl
  simp only [fieldsPlaced, anywhere]
  cases place with
  | query => exact List.filter_false _
  | body => exact List.filter_true _

variable {action : String} {rule : Rule} {limits : ObjectLimits}

/-- An accepted ordinary route that leaves a field to its body refers to its action there. -/
theorem body_of_accepted (standard : context.route.kind = .standard)
    (named : context.route.action = some action) {params : Params} {notes : Notes}
    (given : context.route.params = some params)
    (ruled : params.fieldRules? = some (fields, notes))
    (present : (context.fieldsPlaced .body fields).isEmpty = false) {store left : Store}
    {inputs : Inputs} (accepted : context.inputs.run store = (.ok inputs, left)) :
    inputs.body.map RequestBody.schema = some (.ref action) := by
  have serves : ¬(context.route.joker = true ∧ context.route.action = none) := by
    rw [named]
    exact fun impossible => nomatch impossible.2
  obtain ⟨middle, others⟩ := otherInputs_of_accepted serves accepted
  simp only [otherInputs, standard] at others
  obtain ⟨converted, outside, -, body⟩ := standardInputs_eq_ok given ruled others
  have taken : context.fieldsPlaced .body fields = context.placed .body converted := by
    rw [fieldsPlaced, documentedFields, outside, placed]
  rw [taken] at present
  rcases body with ⟨nothing, -⟩ | ⟨own, same, made⟩
  · rw [nothing] at present
    cases present
  · cases named.symm.trans same
    rw [show inputs.body = _ from made, fieldBody?, present]
    rfl

variable (context)

/-- The component of a root object rule is the object of its fields.  The lifted
rule is stored under the same name with everything else that it says. -/
theorem root_object_components (builtin : context.table = .builtin)
    (standard : context.route.kind = .standard) (named : context.route.action = some action)
    (sends : context.sendsBody = true) (plain : context.placeholders = [])
    (unplaced : context.docs.parameterLocations = [])
    (given : context.route.params = some (.root rule))
    (kind : rule.kind = .object (some fields) limits)
    (documents : MapperTable.builtin.Documents fields) (store other : Store) :
    ∃ inputs left fragment,
      context.inputs.run store = (.ok inputs, left) ∧
      inputs.body.map RequestBody.schema = some (.ref action) ∧
      MapperTable.builtin.convertRule rule = .ok (some fragment) ∧
      left.get? action =
        some ((Fragment.object (Fragment.ofFields fields) rule.notes).lifted action) ∧
      (Store.lift fragment.schema action other).2.get? action =
        some (rule.constrain limits
          ((Fragment.object (Fragment.ofFields fields) rule.notes).lifted action)) := by
  have ruled : (Params.root rule).fieldRules? = some (fields, rule.notes) := by
    simp only [Params.fieldRules?, kind]
  have documented : context.route.isDocumented = true := by
    rw [Route.isDocumented, named, Option.isSome_some, Bool.true_or]
  have allowed : ¬context.route.UploadsValue := by
    intro uploads
    obtain ⟨options, upload⟩ := uploads.upload
    cases standard.symm.trans upload
  have converted := MapperTable.convertFields_builtin fields
  have present := (MapperTable.documents_iff converted).mp documents
  have inBody : context.fieldsPlaced .body fields = Fragment.ofFields fields := by
    rw [fieldsPlaced_of_sendsBody sends unplaced, if_pos rfl,
      documentedFields_builtin builtin plain]
  have lifted : context.otherLiftings =
      [] ++ context.bodyLiftings (Fragment.ofFields fields) rule.notes := by
    simp only [otherLiftings, given, ruled, standard, inBody,
      fieldsPlaced_of_sendsBody sends unplaced .query]
    rfl
  obtain ⟨inputs, left, ran⟩ := inputs_succeed builtin documented allowed store
  refine ⟨inputs, left, _, ran, ?_, MapperTable.convertRule_object rfl kind converted,
    component_of_accepted ran lifted present named, ?_⟩
  · exact body_of_accepted standard named given ruled (by rw [inBody, present]) ran
  · rw [Rule.finish_object, Store.lift_eq, Store.get?_record_named
      (Rule.isNamedObject_constrain (Fragment.isNamedObject_object rule.notes present)),
      Rule.lifted_constrain]

/-- The body of an ordinary route with a root object rule refers to the object
of the fields, without anything else that the rule says.  Lifting the converted
rule stores all of it, so the two components are the same exactly for a rule
that says nothing else. -/
theorem root_object_component_iff (builtin : context.table = .builtin)
    (standard : context.route.kind = .standard) (named : context.route.action = some action)
    (sends : context.sendsBody = true) (plain : context.placeholders = [])
    (unplaced : context.docs.parameterLocations = [])
    (given : context.route.params = some (.root rule))
    (kind : rule.kind = .object (some fields) limits)
    (documents : MapperTable.builtin.Documents fields) (store other : Store) :
    ∃ inputs left fragment object,
      context.inputs.run store = (.ok inputs, left) ∧
      inputs.body.map RequestBody.schema = some (.ref action) ∧
      MapperTable.builtin.convertRule rule = .ok (some fragment) ∧
      left.get? action = some object ∧
      (Store.lift fragment.schema action other).2.get? action =
        some (rule.constrain limits object) ∧
      (left.get? action = (Store.lift fragment.schema action other).2.get? action ↔
        rule.Unconstrained limits) := by
  obtain ⟨inputs, left, fragment, ran, body, converted, stored, relifted⟩ :=
    context.root_object_components builtin standard named sends plain unplaced given kind documents store
      other
  refine ⟨inputs, left, fragment, _, ran, body, converted, stored, relifted, ?_⟩
  rw [stored, relifted, Option.some.injEq, eq_comm, Rule.constrain_lifted_eq_iff]

/-- A route that creates users from one value, an object with a name. -/
def creating (limits : ObjectLimits) : OperationContext where
  table := .builtin
  settings := {}
  method := .post
  fullPath := "/users"
  route :=
    { action := some "users.create"
      params := some (.root { kind := .object (some [("name", .text)]) limits }) }
  docs := {}

theorem documents_text (name : String) : MapperTable.builtin.Documents [(name, .text)] := by
  refine ⟨_, List.mem_cons_self, ?_⟩
  rw [MapperTable.shown?, MapperTable.convert_builtin, Rule.fragment?_text]
  rfl

/-- Without limits nothing is lost. -/
theorem root_object_component_iff_creating :
    (creating {}).sendsBody = true ∧ MapperTable.builtin.Documents [("name", .text)] ∧
    ∃ inputs left fragment,
      (creating {}).inputs.run {} = (.ok inputs, left) ∧
      MapperTable.builtin.convertRule (.object [("name", .text)]) = .ok (some fragment) ∧
      left.get? "users.create" =
        (Store.lift fragment.schema "users.create" {}).2.get? "users.create" := by
  have sends : (creating {}).sendsBody = true := by decide
  have plain : (creating {}).placeholders = [] := by decide
  obtain ⟨inputs, left, fragment, _, ran, -, converted, -, -, same⟩ :=
    root_object_component_iff (creating {}) rfl rfl rfl sends plain rfl rfl rfl
      (documents_text "name") {} {}
  exact ⟨sends, documents_text "name", inputs, left, fragment, ran, converted,
    same.mpr ⟨rfl, rfl, rfl, rfl, rfl⟩⟩

/-- A strict object is stored as one that accepts further properties. -/
theorem strictness_of_root_object_is_lost :
    ∃ inputs left fragment stored lifted,
      (creating { strict := true }).inputs.run {} = (.ok inputs, left) ∧
      inputs.body.map RequestBody.schema = some (.ref "users.create") ∧
      MapperTable.builtin.convertRule
        { kind := .object (some [("name", .text)]) { strict := true } } = .ok (some fragment) ∧
      left.get? "users.create" = some stored ∧ stored.additional = none ∧
      (Store.lift fragment.schema "users.create" {}).2.get? "users.create" = some lifted ∧
      lifted.additional = some (.allowed false) ∧ stored ≠ lifted := by
  have sends : (creating { strict := true }).sendsBody = true := by decide
  have plain : (creating { strict := true }).placeholders = [] := by decide
  obtain ⟨inputs, left, fragment, ran, body, converted, stored, relifted⟩ :=
    root_object_components (creating { strict := true }) rfl rfl rfl sends plain rfl rfl
      rfl (documents_text "name") {} {}
  refine ⟨inputs, left, fragment, _, _, ran, body, converted, stored, rfl, relifted, rfl, ?_⟩
  intro same
  cases congrArg SchemaObject.additional same

end OperationContext
end RouteDocs
