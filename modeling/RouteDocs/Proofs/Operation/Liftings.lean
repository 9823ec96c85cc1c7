import RouteDocs.Proofs.Convert.Everywhere
import RouteDocs.Proofs.Operation.Extraction
import RouteDocs.Proofs.Store.FieldObjects
import RouteDocs.Proofs.Store.References

namespace RouteDocs

/-!
# What the parameters of an operation lift

All components of an operation come from lifting converted rules, each under a
name that is known before anything is stored.  An object made of fields is no
exception: registering it is lifting the inline object with these fields.
`OperationContext.liftings` lists the names and schemas in order.  It depends
on the method of the operation only through the placement of the fields, and
`inputs_settle` says that a successful computation of the parameters lifts
exactly this list.
-/

namespace Schema

/-- A schema draws on liftings when its references come from what these leave. -/
def DrawsOn (liftings : List (String × Schema)) (schema : Schema) : Prop :=
  ∀ target, schema.Mentions target →
    ∃ lifting ∈ liftings, (lifting.2.lifted lifting.1).Mentions target

theorem DrawsOn.lifted {liftings : List (String × Schema)} {name : String} {schema : Schema}
    (member : (name, schema) ∈ liftings) : (schema.lifted name).DrawsOn liftings :=
  fun _ mentioned => ⟨(name, schema), member, mentioned⟩

theorem DrawsOn.mono {few many : List (String × Schema)} {schema : Schema}
    (draws : schema.DrawsOn few) (subset : few ⊆ many) : schema.DrawsOn many := by
  intro target mentioned
  obtain ⟨lifting, member, inside⟩ := draws target mentioned
  exact ⟨lifting, subset member, inside⟩

theorem DrawsOn.of_parts_nil {object : SchemaObject} (none : object.parts = [])
    (liftings : List (String × Schema)) : (inline object).DrawsOn liftings := by
  intro target mentioned
  rw [mentions_inline, SchemaObject.mentions_iff, none] at mentioned
  obtain ⟨_, impossible, _⟩ := mentioned
  cases impossible

theorem DrawsOn.of_parts {object : SchemaObject} {liftings : List (String × Schema)}
    (parts : ∀ part ∈ object.parts, part.DrawsOn liftings) : (inline object).DrawsOn liftings := by
  intro target mentioned
  rw [mentions_inline, SchemaObject.mentions_iff] at mentioned
  obtain ⟨part, member, inside⟩ := mentioned
  exact parts part member target inside

end Schema

/-- All schemas that an operation takes. -/
def Inputs.schemas (inputs : Inputs) : List Schema :=
  inputs.parameters.map Parameter.schema ++ inputs.body.toList.map RequestBody.schema

namespace OperationContext

/-! ## The liftings of an operation -/

/-- The schema of a rule, where its conversion succeeds and it appears in the document. -/
def ruleSchema? (context : OperationContext) (rule : Rule) : Option Schema :=
  match context.table.convertRule rule with
  | .ok (some fragment) => some fragment.schema
  | _ => none

/-- The fields that appear in the document and not in the path, where their
conversion succeeds. -/
def documentedFields (context : OperationContext) (fields : Entries Rule) : Entries Fragment :=
  match context.fieldsOutsidePath fields with
  | .ok converted => converted
  | .error _ => []

def fieldsPlaced (context : OperationContext) (place : Placement) (fields : Entries Rule) :
    Entries Fragment :=
  (context.documentedFields fields).filter fun field => context.placement field.1 == place

def parameterLiftings (context : OperationContext) (declared : PathParameter) :
    List (String × Schema) :=
  match declared.rule.bind context.ruleSchema? with
  | some schema => [(componentName (context.route.action.getD "path") declared.name, schema)]
  | none => []

def pathLiftings (context : OperationContext) : List (String × Schema) :=
  (context.docs.pathParameters.getD []).flatMap context.parameterLiftings

def queryLiftings (context : OperationContext) (fields : Entries Fragment) :
    List (String × Schema) :=
  fields.map fun field =>
    (componentName (context.route.action.getD context.fullPath) field.1, field.2.schema)

/-- What fields in a body lift: one object under the name of the action. -/
def bodyLiftings (context : OperationContext) (fields : Entries Fragment) (notes : Notes) :
    List (String × Schema) :=
  if fields.isEmpty then []
  else context.route.action.toList.map fun action =>
    (action, .inline (Fragment.object fields notes))

def valueLiftings (context : OperationContext) (rule : Rule) : List (String × Schema) :=
  if context.sendsBody then
    match context.route.action, context.ruleSchema? rule with
    | some action, some schema => [(action, schema)]
    | _, _ => []
  else []

/-- What the parameters besides those of the path lift, and the body. -/
def otherLiftings (context : OperationContext) : List (String × Schema) :=
  match context.route.params with
  | none => []
  | some params =>
    match params.fieldRules?, context.route.kind with
    | some (fields, _), .stream => context.queryLiftings (context.documentedFields fields)
    | some (fields, notes), .multipart _ =>
      context.bodyLiftings (context.documentedFields fields) notes
    | some (fields, notes), .standard =>
      context.queryLiftings (context.fieldsPlaced .query fields) ++
        context.bodyLiftings (context.fieldsPlaced .body fields) notes
    | none, .standard =>
      match params with
      | .root rule => context.valueLiftings rule
      | .fields _ _ => []
    | none, _ => []

/-- Everything that an operation lifts, in order. -/
def liftings (context : OperationContext) : List (String × Schema) :=
  context.pathLiftings ++
    if context.route.joker && context.route.action.isNone then [] else context.otherLiftings

/-! ## The parameters settle to their liftings -/

variable (context : OperationContext)

theorem documentedParameter_settles (declared : PathParameter) :
    (context.documentedParameter declared).Settles
      (Schema.registrationsOf (context.parameterLiftings declared))
      fun parameter => parameter.schema.DrawsOn (context.parameterLiftings declared) := by
  unfold documentedParameter parameterLiftings
  cases declared.rule with
  | none => exact .pure (.of_parts_nil rfl _)
  | some rule =>
    apply Extraction.Settles.bind_nil (.ofConversion _)
    rintro (_ | fragment) converted
    · simp only [Option.bind_some, ruleSchema?, converted]
      exact .pure (.of_parts_nil rfl _)
    · simp only [Option.bind_some, ruleSchema?, converted]
      have lifts := Extraction.Settles.ofStore
        (Store.lift_eq fragment.schema
          (componentName (context.route.action.getD "path") declared.name))
      rw [Schema.registrationsOf_cons, Schema.registrationsOf_nil, List.append_nil]
      apply lifts.bind_pure
      rintro _ rfl
      exact .lifted List.mem_cons_self

theorem pathParameters_settle :
    context.pathParameters.Settles (Schema.registrationsOf context.pathLiftings)
      fun parameters => ∀ parameter ∈ parameters,
        parameter.schema.DrawsOn context.pathLiftings := by
  unfold pathParameters pathLiftings
  cases context.docs.pathParameters with
  | none =>
    apply Extraction.Settles.pure
    intro parameter member
    obtain ⟨name, _, rfl⟩ := List.mem_map.mp member
    exact .of_parts_nil rfl _
  | some declared =>
    rw [Option.getD_some, Schema.registrationsOf_flatMap]
    apply (Extraction.Settles.mapM fun parameter _ =>
      context.documentedParameter_settles parameter).imp
    intro parameters all parameter member
    obtain ⟨source, listed, draws⟩ := all parameter member
    exact draws.mono fun lifting lifted => List.mem_flatMap.mpr ⟨source, listed, lifted⟩

/-- A field as the query parameter that lifting leaves of it. -/
def queryParameterOf (field : String × Fragment) : Parameter where
  name := field.1
  location := .query
  required := !field.2.optional
  schema := field.2.schema.lifted
    (componentName (context.route.action.getD context.fullPath) field.1)
  deepObject := (field.2.schema.object?.map SchemaObject.isObject).getD false

theorem queryParameters_eq (fields : Entries Fragment) (store : Store) :
    context.queryParameters fields store =
      (fields.map context.queryParameterOf,
        store.record (Schema.registrationsOf (context.queryLiftings fields))) := by
  induction fields generalizing store with
  | nil => rfl
  | cons field rest inductionHypothesis =>
    rcases field with ⟨name, fragment⟩
    simp only [queryParameters, queryParameter, Store.lift_eq, inductionHypothesis, List.map_cons,
      queryLiftings, Schema.registrationsOf_cons, Store.record_append, queryParameterOf]

theorem queryParameterOf_drawsOn {fields : Entries Fragment} {parameter : Parameter}
    (member : parameter ∈ fields.map context.queryParameterOf) :
    parameter.schema.DrawsOn (context.queryLiftings fields) := by
  obtain ⟨field, listed, rfl⟩ := List.mem_map.mp member
  exact .lifted (List.mem_map.mpr ⟨field, listed, rfl⟩)

/-- The property of a body that draws on given liftings, where there is one. -/
def BodyDrawsOn (liftings : List (String × Schema)) (body? : Option RequestBody) : Prop :=
  ∀ body ∈ body?, body.schema.DrawsOn liftings

def DrawOn (liftings : List (String × Schema))
    (taken : List Parameter × Option RequestBody) : Prop :=
  (∀ parameter ∈ taken.1, parameter.schema.DrawsOn liftings) ∧ BodyDrawsOn liftings taken.2

theorem bodyDrawsOn_none (liftings : List (String × Schema)) : BodyDrawsOn liftings none :=
  fun _ impossible => nomatch impossible

theorem bodyDrawsOn_some {liftings : List (String × Schema)} {body : RequestBody}
    (draws : body.schema.DrawsOn liftings) : BodyDrawsOn liftings (some body) := by
  intro other same
  cases same
  exact draws

theorem drawOn_of_body {liftings : List (String × Schema)} {body? : Option RequestBody}
    (draws : BodyDrawsOn liftings body?) : DrawOn liftings ([], body?) :=
  ⟨fun _ impossible => absurd impossible List.not_mem_nil, draws⟩

theorem fieldsOutsidePath_settles (fields : Entries Rule) :
    (Extraction.ofConversion (context.fieldsOutsidePath fields)).Settles []
      fun converted => converted = context.documentedFields fields := by
  apply (Extraction.Settles.ofConversion _).imp
  intro converted succeeded
  simp only [documentedFields, succeeded]

theorem drawOn_streamBody {liftings : List (String × Schema)} {parameters : List Parameter}
    (draws : ∀ parameter ∈ parameters, parameter.schema.DrawsOn liftings) :
    DrawOn liftings (parameters, some streamBody) :=
  ⟨draws, bodyDrawsOn_some (.of_parts_nil rfl liftings)⟩

theorem streamInputs_settle (stream : context.route.kind = .stream) :
    context.streamInputs.Settles (Schema.registrationsOf context.otherLiftings)
      (DrawOn context.otherLiftings) := by
  unfold streamInputs otherLiftings
  cases context.route.params with
  | none => exact .pure (drawOn_streamBody fun _ impossible => nomatch impossible)
  | some params =>
    simp only [Option.bind_some, stream]
    rcases params.fieldRules? with _ | ⟨fields, notes⟩
    · exact .pure (drawOn_streamBody fun _ impossible => nomatch impossible)
    · apply Extraction.Settles.bind_nil (context.fieldsOutsidePath_settles fields)
      rintro _ rfl
      have stored := Extraction.Settles.ofStore
        (context.queryParameters_eq (context.documentedFields fields))
      apply stored.bind_pure
      rintro _ rfl
      exact drawOn_streamBody fun parameter member => context.queryParameterOf_drawsOn member

theorem action_of_requiredAction_eq_ok {context : OperationContext} {action : String}
    (found : context.requiredAction = .ok action) : context.route.action = some action := by
  unfold requiredAction at found
  split at found
  · next same => exact same.trans (congrArg some (Except.ok.inj found))
  · cases found

theorem requiredAction_settles :
    (Extraction.ofConversion context.requiredAction).Settles []
      fun action => context.route.action = some action :=
  (Extraction.Settles.ofConversion _).imp fun _ found => action_of_requiredAction_eq_ok found

theorem bodyLiftings_of_action {fields : Entries Fragment} (some : fields.isEmpty = false)
    (notes : Notes) {action : String} (named : context.route.action = .some action) :
    context.bodyLiftings fields notes = [(action, .inline (Fragment.object fields notes))] := by
  simp only [bodyLiftings, some, named, Bool.false_eq_true, if_false, Option.toList_some,
    List.map_cons, List.map_nil]

/-- The reference to an object made of fields draws on the lifting of this object. -/
theorem ref_drawsOn_bodyLiftings {fields : Entries Fragment} (some : fields.isEmpty = false)
    (notes : Notes) {action : String} (named : context.route.action = .some action) :
    (Schema.ref action).DrawsOn (context.bodyLiftings fields notes) := by
  rw [context.bodyLiftings_of_action some notes named]
  have left : (Schema.inline (Fragment.object fields notes)).lifted action = .ref action := by
    rw [Schema.lifted_inline, if_pos (Fragment.isNamedObject_object notes some)]
  exact left ▸ Schema.DrawsOn.lifted List.mem_cons_self

theorem registerObject_settles {fields : Entries Fragment} (some : fields.isEmpty = false)
    (notes : Notes) {action : String} (named : context.route.action = .some action) :
    (Extraction.ofStore fun store => store.registerObject action fields notes).Settles
      (Schema.registrationsOf (context.bodyLiftings fields notes))
      fun reference => reference = .ref action := by
  rw [context.bodyLiftings_of_action some notes named, Schema.registrationsOf_cons,
    Schema.registrationsOf_nil, List.append_nil]
  exact .ofStore (Store.registerObject_eq some notes action)

theorem fileSchema_drawsOn (options : UploadOptions) (liftings : List (String × Schema)) :
    (Schema.inline (context.fileSchema options)).DrawsOn liftings := by
  apply Schema.DrawsOn.of_parts
  intro part member
  obtain rfl : part = .inline (if options.maxFiles == some 1 then .formatted "binary" else
      { type := some .array, items := some (.inline (.formatted "binary")),
        maxItems := options.maxFiles }) := by
    simpa [SchemaObject.parts, SchemaObject.further?, fileSchema] using member
  split
  · exact .of_parts_nil rfl liftings
  · apply Schema.DrawsOn.of_parts
    intro file listed
    obtain rfl : file = .inline (.formatted "binary") := by
      simpa [SchemaObject.parts, SchemaObject.further?] using listed
    exact .of_parts_nil rfl liftings

theorem uploadSchema_settles {options : UploadOptions}
    (upload : context.route.kind = .multipart options) :
    (context.uploadSchema options).Settles (Schema.registrationsOf context.otherLiftings)
      fun schema => schema.DrawsOn context.otherLiftings := by
  unfold uploadSchema uploadFields otherLiftings
  cases context.route.params with
  | none =>
    apply Extraction.Settles.bind_nil (.ofConversion _)
    rintro _ ⟨⟩
    exact .pure (context.fileSchema_drawsOn options _)
  | some params =>
    simp only [upload]
    rcases params.fieldRules? with _ | ⟨fields, notes⟩
    · apply Extraction.Settles.bind_nil (.ofConversion _)
      intro fields? accepted
      dsimp only at accepted
      split at accepted
      · cases accepted
        exact .pure (context.fileSchema_drawsOn options _)
      · cases accepted
    · apply Extraction.Settles.bind_nil (.ofConversion _)
      rintro _ ⟨⟩
      apply Extraction.Settles.bind_nil (context.fieldsOutsidePath_settles fields)
      rintro _ rfl
      cases present : (context.documentedFields fields).isEmpty with
      | true =>
        simp only [bodyLiftings, present, if_true]
        exact .pure (context.fileSchema_drawsOn options _)
      | false =>
        simp only [Bool.false_eq_true, if_false]
        apply Extraction.Settles.bind_nil context.requiredAction_settles
        intro action named
        apply (context.registerObject_settles present notes named).bind_pure
        rintro _ rfl
        apply Schema.DrawsOn.of_parts
        intro part member
        have either : part = .inline (context.fileSchema options) ∨ part = .ref action := by
          simpa [SchemaObject.parts, SchemaObject.further?] using member
        rcases either with rfl | rfl
        · exact context.fileSchema_drawsOn options _
        · exact context.ref_drawsOn_bodyLiftings present notes named

theorem uploadBody_settles {options : UploadOptions}
    (upload : context.route.kind = .multipart options) :
    (context.uploadBody options).Settles (Schema.registrationsOf context.otherLiftings)
      fun body => body.schema.DrawsOn context.otherLiftings :=
  (context.uploadSchema_settles upload).bind_pure fun _ draws => draws

theorem valueBody_settles (rule : Rule) :
    (context.valueBody rule).Settles (Schema.registrationsOf (context.valueLiftings rule))
      (BodyDrawsOn (context.valueLiftings rule)) := by
  unfold valueBody valueLiftings
  cases context.sendsBody with
  | false => exact .pure (bodyDrawsOn_none _)
  | true =>
    simp only [if_true]
    apply Extraction.Settles.bind_nil (.ofConversion _)
    rintro (_ | fragment) converted
    · simp only [ruleSchema?, converted]
      cases context.route.action <;> exact .pure (bodyDrawsOn_none _)
    · apply Extraction.Settles.bind_nil context.requiredAction_settles
      intro action named
      simp only [ruleSchema?, converted, named]
      have lifts := Extraction.Settles.ofStore (Store.lift_eq fragment.schema action)
      rw [Schema.registrationsOf_cons, Schema.registrationsOf_nil, List.append_nil]
      apply lifts.bind_pure
      rintro _ rfl
      exact bodyDrawsOn_some (.lifted List.mem_cons_self)

/-- The body finds the object that it has just registered, on every store. -/
theorem fieldBody_settles (fields : Entries Fragment) (notes : Notes) :
    (context.fieldBody fields notes).Settles
      (Schema.registrationsOf (context.bodyLiftings fields notes))
      (BodyDrawsOn (context.bodyLiftings fields notes)) := by
  unfold fieldBody
  cases present : fields.isEmpty with
  | true =>
    simp only [bodyLiftings, present, if_true]
    exact .pure (bodyDrawsOn_none _)
  | false =>
    simp only [Bool.false_eq_true, if_false]
    apply Extraction.Settles.bind_nil context.requiredAction_settles
    intro action named
    have draws := context.ref_drawsOn_bodyLiftings present notes named
    let body : RequestBody :=
      { contentTypes := context.contentTypes
        schema := .ref action
        required := !((Fragment.object fields notes).lifted action).required.isEmpty }
    refine Or.inl ⟨some body, bodyDrawsOn_some draws, fun store => ?_⟩
    rw [context.bodyLiftings_of_action present notes named, Schema.registrationsOf_cons,
      Schema.registrationsOf_nil, List.append_nil]
    have found := Store.get?_record_object present notes action store
    simp only [Extraction.run_bind, Extraction.run_ofStore, Extraction.run_get,
      Extraction.run_ofConversion, Extraction.run_pure, Store.registerObject_eq present,
      Store.resolve, found, body]

theorem standardInputs_settle (standard : context.route.kind = .standard) :
    context.standardInputs.Settles (Schema.registrationsOf context.otherLiftings)
      (DrawOn context.otherLiftings) := by
  unfold standardInputs otherLiftings
  cases context.route.params with
  | none => exact .pure (drawOn_of_body (bodyDrawsOn_none _))
  | some params =>
    simp only [standard]
    rcases params.fieldRules? with _ | ⟨fields, notes⟩
    · cases params with
      | root rule =>
        exact (context.valueBody_settles rule).bind_pure fun _ draws => drawOn_of_body draws
      | fields named notes => exact .pure (drawOn_of_body (bodyDrawsOn_none _))
    · apply Extraction.Settles.bind_nil (context.fieldsOutsidePath_settles fields)
      rintro _ rfl
      rw [Schema.registrationsOf_append]
      have queried := Extraction.Settles.ofStore
        (context.queryParameters_eq (context.fieldsPlaced .query fields))
      apply queried.bind
      rintro _ rfl
      apply (context.fieldBody_settles (context.fieldsPlaced .body fields) notes).bind_pure
      intro body? draws
      constructor
      · intro parameter member
        exact (context.queryParameterOf_drawsOn member).mono (List.subset_append_left _ _)
      · intro body member
        exact (draws body member).mono (List.subset_append_right _ _)

theorem otherInputs_settle :
    context.otherInputs.Settles (Schema.registrationsOf context.otherLiftings)
      (DrawOn context.otherLiftings) := by
  unfold otherInputs
  cases kind : context.route.kind with
  | stream => exact context.streamInputs_settle kind
  | standard => exact context.standardInputs_settle kind
  | multipart options =>
    apply (context.uploadBody_settles kind).bind_pure
    intro body draws
    exact drawOn_of_body (bodyDrawsOn_some draws)

/-- A successful computation of the parameters registers exactly what the
operation lifts, and refers to nothing else. -/
theorem inputs_settle :
    context.inputs.Settles (Schema.registrationsOf context.liftings)
      fun inputs => ∀ schema ∈ inputs.schemas, schema.DrawsOn context.liftings := by
  unfold inputs liftings
  rw [Schema.registrationsOf_append]
  apply context.pathParameters_settle.bind
  intro pathParameters drawsPath
  split
  · apply Extraction.Settles.pure
    intro schema member
    obtain ⟨parameter, listed, rfl⟩ : ∃ parameter ∈ pathParameters, parameter.schema = schema := by
      simpa [Inputs.schemas, Inputs.parameters] using member
    exact (drawsPath parameter listed).mono (List.subset_append_left _ _)
  · apply context.otherInputs_settle.bind_pure
    rintro ⟨queryParameters, body?⟩ ⟨drawsQuery, drawsBody⟩ schema member
    simp only [Inputs.schemas, Inputs.parameters, List.mem_append, List.mem_map,
      Option.mem_toList] at member
    rcases member with ⟨parameter, listed | listed, rfl⟩ | ⟨body, given, rfl⟩
    · exact (drawsPath parameter listed).mono (List.subset_append_left _ _)
    · exact (drawsQuery parameter listed).mono (List.subset_append_right _ _)
    · exact (drawsBody body given).mono (List.subset_append_right _ _)

end OperationContext
end RouteDocs
