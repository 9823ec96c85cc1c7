import RouteDocs.Proofs.Convert.Builtin
import RouteDocs.Proofs.Operation.Components

namespace RouteDocs

/-!
# Where the fields of an operation go

A field that appears in the document and not in the path has exactly one place.
An ordinary route divides its fields between the query and the body, a byte
stream has all of them in the query, and a file upload all of them in the
component of its action.  The body does not list its fields; it refers to a
component, and the fields are found there.

Nothing is said here of where a field would be better placed, and nothing of
parameters that are one value as a whole: they have no fields.
-/

namespace MapperTable

/-- A field with its fragment, where its rule is converted and appears. -/
def shown? (table : MapperTable) (scope : Scope) (field : String × Rule) :
    Option (String × Fragment) :=
  match table.convert field.2 {} scope with
  | .ok (some fragment) => some (field.1, fragment)
  | _ => none

theorem convertEntries_eq_ok (table : MapperTable) {fields : Entries Rule} {scope : Scope}
    {converted : Entries Fragment} (succeeded : table.convertEntries fields scope = .ok converted) :
    converted = fields.filterMap (table.shown? scope) := by
  induction fields generalizing converted with
  | nil =>
    rw [convertEntries] at succeeded
    cases succeeded
    rfl
  | cons field rest inductionHypothesis =>
    rcases field with ⟨name, rule⟩
    rw [convertEntries] at succeeded
    split at succeeded
    · cases succeeded
    · next fragment? found =>
      obtain ⟨later, mapped, joined⟩ := Except.eq_ok_of_map_eq_ok succeeded
      rw [List.filterMap_cons, shown?, found, ← inductionHypothesis mapped, ← joined]
      cases fragment? <;> rfl

/-- A field that appears keeps its name, and may be left out when its rule says so. -/
theorem shown?_eq_some (table : MapperTable) {scope : Scope} {field : String × Rule}
    {shown : String × Fragment} (appears : table.shown? scope field = some shown) :
    shown.1 = field.1 ∧ shown.2.optional = field.2.isOptional := by
  unfold shown? at appears
  split at appears
  · next fragment converted =>
    cases appears
    rcases convert_eq_some converted with ⟨object, rfl, -⟩
    exact ⟨rfl, rfl⟩
  · cases appears

end MapperTable

namespace OperationContext

/-! ## The fields that have a place -/

/-- The fields that appear in the document and not in the path, each with its
fragment, in the order of their declaration. -/
def shownFields (context : OperationContext) (fields : Entries Rule) : Entries Fragment :=
  (fields.filter fun field => !context.placeholders.contains field.1).filterMap
    (context.table.shown? (.ofFields fields))

variable {context : OperationContext}

/-- Without placeholders no field is left to the path. -/
theorem fieldsOutsidePath_of_plain (plain : context.placeholders = []) {fields : Entries Rule}
    {converted : Entries Fragment} (succeeded : context.table.convertFields fields = .ok converted) :
    context.fieldsOutsidePath fields = .ok converted := by
  simp only [fieldsOutsidePath, succeeded, Except.map, plain, List.contains_nil, Bool.not_false,
    List.filter_true]

theorem fieldsOutsidePath_eq_ok {fields : Entries Rule} {converted : Entries Fragment}
    (succeeded : context.fieldsOutsidePath fields = .ok converted) :
    converted = context.shownFields fields := by
  obtain ⟨all, mapped, rfl⟩ := Except.eq_ok_of_map_eq_ok succeeded
  rw [context.table.convertEntries_eq_ok mapped, shownFields, List.filter_filterMap,
    List.filterMap_filter]
  apply List.filterMap_congr
  intro field _
  cases shown : context.table.shown? (.ofFields fields) field with
  | none => cases context.placeholders.contains field.1 <;> rfl
  | some entry =>
    have named : entry.1 = field.1 := (context.table.shown?_eq_some shown).1
    cases outside : context.placeholders.contains field.1 <;>
      simp only [Option.filter_some, named, outside, Bool.not_true, Bool.not_false,
        Bool.false_eq_true, if_true, if_false]

/-- Every shown field is declared outside the path. -/
theorem declared_of_mem_shownFields {fields : Entries Rule} {shown : String × Fragment}
    (member : shown ∈ context.shownFields fields) :
    ∃ rule, (shown.1, rule) ∈ fields ∧ shown.1 ∉ context.placeholders ∧
      shown.2.optional = rule.isOptional := by
  obtain ⟨⟨name, rule⟩, kept, appears⟩ := List.mem_filterMap.mp member
  obtain ⟨declared, outside⟩ := List.mem_filter.mp kept
  obtain ⟨named, optional⟩ := context.table.shown?_eq_some appears
  rw [named]
  exact ⟨rule, declared, by simpa using outside, optional⟩

theorem documentedFields_eq_shownFields {fields : Entries Rule} {converted : Entries Fragment}
    (succeeded : context.fieldsOutsidePath fields = .ok converted) :
    context.documentedFields fields = context.shownFields fields := by
  rw [documentedFields, succeeded]
  exact fieldsOutsidePath_eq_ok succeeded

/-- Where a field of an ordinary route belongs: where its documentation puts it,
and without one in the body for the methods that send a body, else in the query. -/
inductive BelongsIn (context : OperationContext) (name : String) : Placement → Prop where
  | documented {place : Placement}
    (put : context.docs.parameterLocations.get? name = some place) : BelongsIn context name place
  | sent (free : context.docs.parameterLocations.get? name = none)
    (sends : context.method ∈ context.settings.bodyMethods) : BelongsIn context name .body
  | asked (free : context.docs.parameterLocations.get? name = none)
    (sendsNone : context.method ∉ context.settings.bodyMethods) : BelongsIn context name .query

theorem belongsIn_placement (context : OperationContext) (name : String) :
    context.BelongsIn name (context.placement name) := by
  unfold placement
  cases put : context.docs.parameterLocations.get? name with
  | some place => exact .documented put
  | none =>
    cases sends : context.sendsBody with
    | true => exact .sent put (List.contains_iff_mem.mp sends)
    | false => exact .asked put (mt List.contains_iff_mem.mpr (Bool.eq_false_iff.mp sends))

/-- Fields divided between the query and the body: none is lost, none is in
both, each is where it belongs, and both parts keep the order. -/
structure Divides (context : OperationContext) (shown inQuery inBody : Entries Fragment) :
    Prop where
  perm : (inQuery ++ inBody).Perm shown
  queryInOrder : inQuery.Sublist shown
  bodyInOrder : inBody.Sublist shown
  inQuery : ∀ field ∈ inQuery, context.BelongsIn field.1 .query
  inBody : ∀ field ∈ inBody, context.BelongsIn field.1 .body

/-- The fields of one place, in order. -/
def placed (context : OperationContext) (place : Placement) (shown : Entries Fragment) :
    Entries Fragment :=
  shown.filter fun field => context.placement field.1 == place

theorem belongsIn_of_mem_placed {place : Placement} {shown : Entries Fragment}
    {field : String × Fragment} (member : field ∈ context.placed place shown) :
    context.BelongsIn field.1 place := by
  have same : context.placement field.1 = place := beq_iff_eq.mp (List.mem_filter.mp member).2
  exact same ▸ context.belongsIn_placement field.1

theorem divides_placed (context : OperationContext) (shown : Entries Fragment) :
    context.Divides shown (context.placed .query shown) (context.placed .body shown) where
  perm := by
    have others : context.placed .body shown =
        shown.filter fun field => !(context.placement field.1 == .query) := by
      apply List.filter_congr
      intro field _
      cases context.placement field.1 <;> rfl
    rw [others]
    exact List.filter_append_perm _ shown
  queryInOrder := List.filter_sublist
  bodyInOrder := List.filter_sublist
  inQuery _ member := belongsIn_of_mem_placed member
  inBody _ member := belongsIn_of_mem_placed member

/-! ## Query parameters and components of fields -/

/-- A query parameter shows a field: it must be sent unless the field may be
left out, and it has the schema of the field. -/
structure ShowsField (context : OperationContext) (field : String × Fragment)
    (parameter : Parameter) : Prop where
  name : parameter.name = field.1
  location : parameter.location = .query
  required : parameter.required = !field.2.optional
  schema : parameter.schema = field.2.schema.lifted
    (componentName (context.route.action.getD context.fullPath) field.1)

theorem showsFields (context : OperationContext) (fields : Entries Fragment) :
    List.Forall₂ context.ShowsField fields (fields.map context.queryParameterOf) := by
  rw [List.forall₂_map_right_iff, List.forall₂_same]
  intro field _
  exact ⟨rfl, rfl, rfl, rfl⟩

end OperationContext

/-- The component of a name holds fields: they are its properties, in order, and
those that may not be left out are required. -/
def Store.HoldsFields (store : Store) (name : String) (fields : Entries Fragment) : Prop :=
  ∃ object, store.get? name = some object ∧ object.type = some .object ∧
    object.properties = fields.map (fun field =>
      (field.1, field.2.schema.lifted (componentName name field.1))) ∧
    object.required = Entries.names (fields.filter fun field => !field.2.optional)

theorem Store.holdsFields_of_get? {store : Store} {name : String} {fields : Entries Fragment}
    {notes : Notes}
    (found : store.get? name = some ((Fragment.object fields notes).lifted name)) :
    store.HoldsFields name fields := by
  refine ⟨_, found, rfl, ?_, rfl⟩
  simp only [SchemaObject.lifted, Fragment.object, Fragment.schemas, Entries.mapValues,
    List.map_map, Function.comp_def]

namespace OperationContext

/-! ## Routes with fields

Once its fields are converted, an ordinary route with an action can always be
built: the fields of its query are lifted one by one, those of its body as one
object under the name of the action. -/

variable (context : OperationContext)

/-- The body made of fields: a reference to the component of the action. -/
def fieldBody? (action : String) (fields : Entries Fragment) : Option RequestBody :=
  if fields.isEmpty then none
  else some
    { contentTypes := context.contentTypes
      schema := .ref action
      required := !(Fragment.requiredNames fields).isEmpty }

variable {context} {action : String}

theorem fieldBody_yields (named : context.route.action = some action)
    (fields : Entries Fragment) (notes : Notes) :
    (context.fieldBody fields notes).Yields (context.fieldBody? action fields)
      (Schema.registrationsOf (context.bodyLiftings fields notes)) := by
  intro store
  have required : context.requiredAction = .ok action := by
    rw [requiredAction, named]
  cases present : fields.isEmpty with
  | true =>
    simp only [fieldBody, fieldBody?, bodyLiftings, present, if_true]
    rfl
  | false =>
    have found := Store.get?_record_object present notes action store
    rw [context.bodyLiftings_of_action present notes named, Schema.registrationsOf_cons,
      Schema.registrationsOf_nil, List.append_nil]
    simp only [fieldBody, fieldBody?, present, required, Bool.false_eq_true, if_false,
      Extraction.run_bind, Extraction.run_ofStore, Extraction.run_get, Extraction.run_ofConversion,
      Extraction.run_pure, Store.registerObject_eq present, Store.resolve, found]
    rfl

/-- On every store the parameters of such a route are its fields. -/
theorem run_inputs_fields (standard : context.route.kind = .standard)
    (undocumented : context.docs.pathParameters = none)
    (named : context.route.action = some action) {params : Params} {fields : Entries Rule}
    {notes : Notes} (given : context.route.params = some params)
    (ruled : params.fieldRules? = some (fields, notes)) {converted : Entries Fragment}
    (outside : context.fieldsOutsidePath fields = .ok converted) (inQuery inBody : Entries Fragment)
    (query : converted.filter (fun entry => context.placement entry.1 == .query) = inQuery)
    (body : converted.filter (fun entry => context.placement entry.1 == .body) = inBody)
    (store : Store) :
    context.inputs.run store =
      (.ok
        { pathParameters := context.placeholders.map Parameter.ofPath
          queryParameters := inQuery.map context.queryParameterOf
          body := context.fieldBody? action inBody },
        store.record (Schema.registrationsOf
          (context.queryLiftings inQuery ++ context.bodyLiftings inBody notes))) := by
  have noPath : context.pathParameters =
      pure (context.placeholders.map Parameter.ofPath) := by
    simp only [pathParameters, undocumented]
  have others : context.otherInputs = context.standardInputs := by
    simp only [otherInputs, standard]
  have acts : (context.route.joker && context.route.action.isNone) = false := by
    rw [named, Option.isNone_some, Bool.and_false]
  have bodyRun := fieldBody_yields named inBody notes
    (store.record (Schema.registrationsOf (context.queryLiftings inQuery)))
  simp only [inputs, noPath, others, acts, standardInputs, given, ruled, outside, query, body,
    Extraction.run_bind, Extraction.run_pure, Extraction.run_ofConversion,
    Extraction.run_ofStore, context.queryParameters_eq, bodyRun, Bool.false_eq_true, if_false,
    Schema.registrationsOf_append, Store.record_append]

/-- Such a route is built into the record of its fields. -/
theorem build_fields (standard : context.route.kind = .standard)
    (undocumented : context.docs.pathParameters = none)
    (named : context.route.action = some action) {params : Params} {fields : Entries Rule}
    {notes : Notes} (given : context.route.params = some params)
    (ruled : params.fieldRules? = some (fields, notes)) {converted : Entries Fragment}
    (outside : context.fieldsOutsidePath fields = .ok converted) (inQuery inBody : Entries Fragment)
    (query : converted.filter (fun entry => context.placement entry.1 == .query) = inQuery)
    (body : converted.filter (fun entry => context.placement entry.1 == .body) = inBody) :
    context.build =
      .ok (context.operation
          { pathParameters := context.placeholders.map Parameter.ofPath
            queryParameters := inQuery.map context.queryParameterOf
            body := context.fieldBody? action inBody },
        ({} : Store).record (Schema.registrationsOf
          (context.queryLiftings inQuery ++ context.bodyLiftings inBody notes))) := by
  have run := run_inputs_fields standard undocumented named given ruled outside inQuery inBody
    query body {}
  simp only [build, run]

/-! ## What an accepted route has taken

Of a computation that has succeeded every part has succeeded.  So an accepted
route has an action wherever a component is named after it. -/

theorem fieldBody_eq_ok {fields : Entries Fragment} {notes : Notes} {store left : Store}
    {body? : Option RequestBody}
    (succeeded : (context.fieldBody fields notes).run store = (.ok body?, left)) :
    (fields = [] ∧ body? = none) ∨
      ∃ action, context.route.action = some action ∧ body? = context.fieldBody? action fields := by
  cases present : fields.isEmpty with
  | true =>
    simp only [fieldBody, present, if_true] at succeeded
    exact Or.inl ⟨List.isEmpty_iff.mp present, Extraction.eq_of_run_pure succeeded⟩
  | false =>
    have inside := succeeded
    simp only [fieldBody, present, Bool.false_eq_true, if_false] at inside
    obtain ⟨action, found, -⟩ := Extraction.eq_ok_of_run_ofConversion_bind inside
    have named := action_of_requiredAction_eq_ok found
    rw [fieldBody_yields named fields notes store] at succeeded
    cases succeeded
    exact Or.inr ⟨action, named, rfl⟩

variable {params : Params} {fields : Entries Rule} {notes : Notes}

theorem standardInputs_eq_ok (given : context.route.params = some params)
    (ruled : params.fieldRules? = some (fields, notes)) {store left : Store}
    {taken : List Parameter × Option RequestBody}
    (succeeded : context.standardInputs.run store = (.ok taken, left)) :
    ∃ converted, context.fieldsOutsidePath fields = .ok converted ∧
      taken.1 = (context.placed .query converted).map context.queryParameterOf ∧
      ((context.placed .body converted = [] ∧ taken.2 = none) ∨
        ∃ action, context.route.action = some action ∧
          taken.2 = context.fieldBody? action (context.placed .body converted)) := by
  simp only [standardInputs, given, ruled] at succeeded
  obtain ⟨converted, outside, afterFields⟩ := Extraction.eq_ok_of_run_ofConversion_bind succeeded
  have afterQuery := Extraction.eq_ok_of_run_ofStore_bind afterFields
  obtain ⟨body?, _, bodyRun, afterBody⟩ := Extraction.eq_ok_of_run_bind afterQuery
  cases Extraction.eq_of_run_pure afterBody
  refine ⟨converted, outside, ?_, fieldBody_eq_ok bodyRun⟩
  rw [queryParameters_eq]
  rfl

theorem streamInputs_eq_ok (given : context.route.params = some params)
    (ruled : params.fieldRules? = some (fields, notes)) {store left : Store}
    {taken : List Parameter × Option RequestBody}
    (succeeded : context.streamInputs.run store = (.ok taken, left)) :
    ∃ converted, context.fieldsOutsidePath fields = .ok converted ∧
      taken = (converted.map context.queryParameterOf, some streamBody) := by
  simp only [streamInputs, given, Option.bind_some, ruled] at succeeded
  obtain ⟨converted, outside, afterFields⟩ := Extraction.eq_ok_of_run_ofConversion_bind succeeded
  have afterQuery := Extraction.eq_ok_of_run_ofStore_bind afterFields
  refine ⟨converted, outside, ?_⟩
  rw [Extraction.eq_of_run_pure afterQuery, queryParameters_eq]

theorem uploadBody_eq_ok {options : UploadOptions} (given : context.route.params = some params)
    (ruled : params.fieldRules? = some (fields, notes)) {store left : Store} {body : RequestBody}
    (succeeded : (context.uploadBody options).run store = (.ok body, left)) :
    ∃ converted, context.fieldsOutsidePath fields = .ok converted ∧
      ((converted = [] ∧ body.schema = .inline (context.fileSchema options)) ∨
        ∃ action, context.route.action = some action ∧ body.schema =
          .inline { allOf := [.inline (context.fileSchema options), .ref action] }) := by
  have uploaded : context.uploadFields = .ok (some (fields, notes)) := by
    simp only [uploadFields, given, ruled]
  obtain ⟨schema, _, schemaRun, afterSchema⟩ := Extraction.eq_ok_of_run_bind succeeded
  cases Extraction.eq_of_run_pure afterSchema
  rw [uploadSchema, uploaded] at schemaRun
  obtain ⟨_, ⟨⟩, afterUpload⟩ := Extraction.eq_ok_of_run_ofConversion_bind schemaRun
  obtain ⟨converted, outside, afterFields⟩ := Extraction.eq_ok_of_run_ofConversion_bind afterUpload
  refine ⟨converted, outside, ?_⟩
  cases present : converted.isEmpty with
  | true =>
    simp only [present, if_true] at afterFields
    exact Or.inl ⟨List.isEmpty_iff.mp present, Extraction.eq_of_run_pure afterFields⟩
  | false =>
    simp only [present, Bool.false_eq_true, if_false] at afterFields
    obtain ⟨action, required, afterAction⟩ :=
      Extraction.eq_ok_of_run_ofConversion_bind afterFields
    have afterObject := Extraction.eq_ok_of_run_ofStore_bind afterAction
    rw [Store.registerObject_eq present] at afterObject
    exact Or.inr ⟨action, action_of_requiredAction_eq_ok required,
      Extraction.eq_of_run_pure afterObject⟩

/-- An accepted route with something to serve has taken its other parameters as well. -/
theorem otherInputs_of_accepted
    (serves : ¬(context.route.joker = true ∧ context.route.action = none)) {store left : Store}
    {inputs : Inputs} (accepted : context.inputs.run store = (.ok inputs, left)) :
    ∃ middle, context.otherInputs.run middle =
      (.ok (inputs.queryParameters, inputs.body), left) := by
  have acts : (context.route.joker && context.route.action.isNone) = false := by
    rw [Bool.eq_false_iff]
    intro both
    rw [Bool.and_eq_true, Option.isNone_iff_eq_none] at both
    exact serves both
  obtain ⟨pathParameters, middle, -, afterPath⟩ := Extraction.eq_ok_of_run_bind accepted
  simp only [acts, Bool.false_eq_true, if_false] at afterPath
  obtain ⟨⟨queryParameters, body⟩, last, others, afterOthers⟩ :=
    Extraction.eq_ok_of_run_bind afterPath
  cases afterOthers
  exact ⟨middle, others⟩

/-- An accepted route leaves the record of what it lifts. -/
theorem left_of_accepted {store left : Store} {inputs : Inputs}
    (accepted : context.inputs.run store = (.ok inputs, left)) :
    left = store.record (Schema.registrationsOf context.liftings) := by
  have yields := (context.inputs_settle.yields_of_run accepted).2
  exact (Prod.mk.inj (accepted.symm.trans (yields store))).2

/-- When the fields of a body come last in what a route lifts, an accepted
route leaves their object under the name of the action. -/
theorem component_of_accepted {store left : Store}
    {inputs : Inputs} (accepted : context.inputs.run store = (.ok inputs, left))
    {before : List (String × Schema)} {shown : Entries Fragment}
    (last : context.otherLiftings = before ++ context.bodyLiftings shown notes)
    (present : shown.isEmpty = false) (named : context.route.action = some action) :
    left.get? action = some ((Fragment.object shown notes).lifted action) := by
  have acts : (context.route.joker && context.route.action.isNone) = false := by
    rw [named, Option.isNone_some, Bool.and_false]
  rw [left_of_accepted accepted, liftings, acts]
  simp only [Bool.false_eq_true, if_false, last, context.bodyLiftings_of_action present notes named,
    Schema.registrationsOf_append, Store.record_append, Schema.registrationsOf_cons,
    Schema.registrationsOf_nil, Store.record_nil]
  exact Store.get?_record_object present notes action _

theorem fieldBody?_eq_none_iff {shown : Entries Fragment} :
    context.fieldBody? action shown = none ↔ shown = [] := by
  cases shown with
  | nil => exact ⟨fun _ => rfl, fun _ => rfl⟩
  | cons field rest =>
    constructor
    · intro impossible
      cases impossible
    · intro impossible
      cases impossible

/-- A body made of fields refers to their component, and must be sent when one
of them must. -/
theorem fieldBody?_eq_some {shown : Entries Fragment} {body : RequestBody}
    (made : context.fieldBody? action shown = some body) :
    shown.isEmpty = false ∧ body.schema = .ref action ∧
      (body.required = true ↔ ∃ field ∈ shown, field.2.optional = false) := by
  unfold fieldBody? at made
  split at made
  · cases made
  · next present =>
    cases made
    refine ⟨Bool.eq_false_iff.mpr present, rfl, ?_⟩
    simp [Fragment.requiredNames]

/-- The fields of a route that appear in the document and not in the path are
divided among the places that its kind has, and every one arrives in the form of
its place.  One may be left out when its rule says so or has a fallback.  This
holds on every store, whatever it contains. -/
theorem accepted_fields_are_placed (given : context.route.params = some params)
    (ruled : params.fieldRules? = some (fields, notes))
    (serves : ¬(context.route.joker = true ∧ context.route.action = none)) {store left : Store}
    {inputs : Inputs} (accepted : context.inputs.run store = (.ok inputs, left)) :
    (∀ shown ∈ context.shownFields fields, ∃ rule, (shown.1, rule) ∈ fields ∧
      shown.1 ∉ context.placeholders ∧ shown.2.optional = rule.isOptional) ∧
    (context.route.kind = .standard →
      ∃ inQuery inBody, context.Divides (context.shownFields fields) inQuery inBody ∧
        List.Forall₂ context.ShowsField inQuery inputs.queryParameters ∧
        (inputs.body = none ↔ inBody = []) ∧
        ∀ body ∈ inputs.body,
          (body.required = true ↔ ∃ field ∈ inBody, field.2.optional = false) ∧
          ∃ action, context.route.action = some action ∧ body.schema = .ref action ∧
            left.HoldsFields action inBody) ∧
    (context.route.kind = .stream →
      List.Forall₂ context.ShowsField (context.shownFields fields) inputs.queryParameters) ∧
    ∀ options, context.route.kind = .multipart options →
      inputs.queryParameters = [] ∧
      (context.shownFields fields ≠ [] →
        ∃ action, context.route.action = some action ∧
          (∃ body ∈ inputs.body, ∃ object, body.schema = .inline object ∧
            .ref action ∈ object.allOf) ∧
          left.HoldsFields action (context.shownFields fields)) := by
  obtain ⟨middle, others⟩ := otherInputs_of_accepted serves accepted
  refine ⟨fun _ => declared_of_mem_shownFields, fun standard => ?_, fun stream => ?_,
    fun options upload => ?_⟩
  · simp only [otherInputs, standard] at others
    obtain ⟨converted, outside, query, body⟩ := standardInputs_eq_ok given ruled others
    have lifted : context.otherLiftings =
        context.queryLiftings (context.placed .query (context.shownFields fields)) ++
          context.bodyLiftings (context.placed .body (context.shownFields fields)) notes := by
      simp only [otherLiftings, given, ruled, standard, fieldsPlaced, placed,
        documentedFields_eq_shownFields outside]
    cases fieldsOutsidePath_eq_ok outside
    refine ⟨_, _, context.divides_placed _, ?_, ?_⟩
    · rw [show inputs.queryParameters = _ from query]
      exact context.showsFields _
    -- Without a field in the body no action was asked for; with one it was found.
    rcases body with ⟨nothing, without⟩ | ⟨action, named, made⟩
    · rw [show inputs.body = none from without]
      exact ⟨⟨fun _ => nothing, fun _ => rfl⟩, fun _ impossible => nomatch impossible⟩
    · have taken : inputs.body = context.fieldBody? action _ := made
      refine ⟨taken ▸ fieldBody?_eq_none_iff, fun body given => ?_⟩
      obtain ⟨present, schema, required⟩ := fieldBody?_eq_some (taken ▸ given)
      exact ⟨required, action, named, schema,
        Store.holdsFields_of_get? (component_of_accepted accepted lifted present named)⟩
  · simp only [otherInputs, stream] at others
    obtain ⟨converted, outside, taken⟩ := streamInputs_eq_ok given ruled others
    cases fieldsOutsidePath_eq_ok outside
    rw [(Prod.mk.inj taken).1]
    exact context.showsFields _
  · simp only [otherInputs, upload] at others
    obtain ⟨body, _, bodyRun, afterBody⟩ := Extraction.eq_ok_of_run_bind others
    have taken := Prod.mk.inj (Extraction.eq_of_run_pure afterBody)
    refine ⟨taken.1, fun some => ?_⟩
    obtain ⟨converted, outside, nothing | ⟨action, named, schema⟩⟩ :=
      uploadBody_eq_ok given ruled bodyRun
    · cases fieldsOutsidePath_eq_ok outside
      exact absurd nothing.1 some
    · have lifted : context.otherLiftings =
          [] ++ context.bodyLiftings (context.shownFields fields) notes := by
        simp only [otherLiftings, given, ruled, upload, List.nil_append,
          documentedFields_eq_shownFields outside]
      have present : (context.shownFields fields).isEmpty = false := by
        rw [List.isEmpty_eq_false_iff]
        exact some
      refine ⟨action, named, ⟨body, taken.2, _, schema, ?_⟩,
        Store.holdsFields_of_get? (component_of_accepted accepted lifted present named)⟩
      exact List.mem_cons_of_mem _ List.mem_cons_self

end OperationContext

/-! ## A route with a field in every place -/

/-- One field is in the path, one goes to the query and one to the body, and one
does not appear. -/
def Rule.order : Entries Rule :=
  [("id", .text), ("name", .text), ("page", { Rule.number with optional := true }),
    ("secret", { kind := .forbidden })]

namespace OperationContext

def ordering : OperationContext where
  table := .builtin
  settings := {}
  method := .post
  fullPath := "/orders/\x7bid\x7d"
  route := { action := some "order", params := some (.fields Rule.order {}) }
  docs := { parameterLocations := [("page", .query)] }

theorem fieldsOutsidePath_ordering :
    ordering.fieldsOutsidePath Rule.order =
      .ok [("name", { schema := .inline (TextLimits.schema {}), optional := false }),
        ("page", { schema := .inline (NumberLimits.schema {}), optional := true })] := by
  have page : ∀ scope, ({ Rule.number with optional := true } : Rule).fragment? {} scope =
      some { schema := .inline (NumberLimits.schema {}), optional := true } := by
    intro scope
    rw [Rule.fragment?_eq]
    rfl
  have secret : ∀ scope, Rule.fragment? { kind := .forbidden } {} scope = none := by
    intro scope
    rw [Rule.fragment?_eq]
    rfl
  have inPath : ordering.placeholders = ["id"] := by decide
  have table : ordering.table = .builtin := rfl
  simp only [fieldsOutsidePath, table, MapperTable.convertFields_builtin, Except.map, inPath,
    Fragment.ofFields, Fragment.ofEntries, Rule.order, List.filterMap_cons, List.filterMap_nil,
    Rule.fragment?_text, page, secret, Option.map_some, Option.map_none]
  rfl

/-- The page is asked for in the query, and the name must be sent in the body. -/
theorem accepted_fields_are_placed_ordering :
    ∃ inputs left, ordering.inputs.run {} = (.ok inputs, left) ∧
      inputs.queryParameters.map Parameter.name = ["page"] ∧
      ∃ inQuery inBody, ordering.Divides (ordering.shownFields Rule.order) inQuery inBody ∧
        List.Forall₂ ordering.ShowsField inQuery inputs.queryParameters ∧
        ∃ body, inputs.body = some body ∧ body.required = true ∧
          left.HoldsFields "order" inBody := by
  have given : ordering.route.params = some (.fields Rule.order {}) := rfl
  have standard : ordering.route.kind = .standard := rfl
  have accepted :=
    run_inputs_fields standard rfl rfl given rfl fieldsOutsidePath_ordering _ _ rfl rfl {}
  obtain ⟨inQuery, inBody, divides, shows, -, body⟩ :=
    (accepted_fields_are_placed given rfl (by decide) accepted).2.1 rfl
  obtain ⟨-, action, named, -, holds⟩ := body _ rfl
  cases named
  exact ⟨_, _, accepted, rfl, inQuery, inBody, divides, shows, _, rfl, rfl, holds⟩

end OperationContext
end RouteDocs
