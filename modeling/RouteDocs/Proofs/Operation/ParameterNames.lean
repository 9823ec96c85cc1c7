import RouteDocs.Proofs.Operation.Placement
import RouteDocs.Proofs.Route.Comparable

namespace RouteDocs

/-!
# The names of parameters and of what a body holds

An operation without documented path parameters has one path parameter for every
placeholder.  A placeholder that repeats gives a parameter that repeats, and
nothing else does: the fields of a route have different names, and those that are
named like a placeholder go neither to the query nor to the body.

A body may still have a property with the name of a path parameter.  The field of
an uploaded file is no field of the route, and parameters that are one value as a
whole are taken for the body as they are, with whatever properties their
alternatives have.  Where a function of the caller makes the schema of such a value,
the schema has whatever properties the function gives it.
`OperationContext.TakesBody` lists all bodies of accepted routes, and
`TakesBody.hasProperty_iff` says that there are no other such properties.
-/

namespace Schema

/-- A value of the schema may have a property of the name.  The object that the schema
stands for in the store names it, or one of those it is combined from, or one of its
alternatives. -/
inductive HasProperty (store : Store) (name : String) : Schema → Prop where
  | own {schema : Schema} {object : SchemaObject} (found : store.resolve schema = .ok object)
      (named : name ∈ Entries.names object.properties) : HasProperty store name schema
  | combined {schema part : Schema} {object : SchemaObject}
      (found : store.resolve schema = .ok object) (listed : part ∈ object.allOf)
      (inside : HasProperty store name part) : HasProperty store name schema
  | alternative {schema part : Schema} {object : SchemaObject}
      (found : store.resolve schema = .ok object) (listed : part ∈ object.oneOf ++ object.anyOf)
      (inside : HasProperty store name part) : HasProperty store name schema

variable {store : Store} {name : String} {schema : Schema} {object : SchemaObject}

theorem hasProperty_iff (found : store.resolve schema = .ok object) :
    schema.HasProperty store name ↔ name ∈ Entries.names object.properties ∨
      (∃ part ∈ object.allOf, part.HasProperty store name) ∨
      ∃ part ∈ object.oneOf ++ object.anyOf, part.HasProperty store name := by
  constructor
  · intro has
    cases has with
    | own foundHere named =>
      cases foundHere.symm.trans found
      exact Or.inl named
    | combined foundHere listed inside =>
      cases foundHere.symm.trans found
      exact Or.inr (Or.inl ⟨_, listed, inside⟩)
    | alternative foundHere listed inside =>
      cases foundHere.symm.trans found
      exact Or.inr (Or.inr ⟨_, listed, inside⟩)
  · rintro (named | ⟨part, listed, inside⟩ | ⟨part, listed, inside⟩)
    · exact .own found named
    · exact .combined found listed inside
    · exact .alternative found listed inside

/-- An object that stands alone has its own properties only. -/
theorem hasProperty_iff_mem_names (found : store.resolve schema = .ok object)
    (notCombined : object.allOf = []) (noOneOf : object.oneOf = []) (noAnyOf : object.anyOf = []) :
    schema.HasProperty store name ↔ name ∈ Entries.names object.properties := by
  simp [hasProperty_iff found, notCombined, noOneOf, noAnyOf]

end Schema

/-! ## Values without fields -/

/-- The object names no properties and is combined from no others; it may have alternatives. -/
structure SchemaObject.NamesNothing (object : SchemaObject) : Prop where
  properties : object.properties = []
  allOf : object.allOf = []
  anyOf : object.anyOf = []

theorem Mapper.namesNothing_plainSchema {mapper : Mapper} {kind : RuleKind} {object : SchemaObject}
    (made : mapper.plainSchema kind = some object) : object.NamesNothing := by
  cases mapper with
  | number =>
    cases made
    cases kind <;> exact ⟨rfl, rfl, rfl⟩
  | date =>
    cases kind with
    | date convert =>
      cases convert with
      | true =>
        cases made
        exact ⟨rfl, rfl, rfl⟩
      | false => cases made
    | _ => cases made
  | currency =>
    cases made
    cases kind <;> exact ⟨rfl, rfl, rfl⟩
  | omitted => cases made
  | multi => cases made
  | _ =>
    cases made
    exact ⟨rfl, rfl, rfl⟩

theorem SchemaObject.namesNothing_constant (value : Option Json) (strict : Bool) :
    (constant value strict).NamesNothing := by
  cases value with
  | none => exact ⟨rfl, rfl, rfl⟩
  | some known => cases strict <;> exact ⟨rfl, rfl, rfl⟩

namespace MapperTable

variable {table : MapperTable}

/-- A rule for one value is converted to an object without properties, whichever of the
mappers serves it.  Only declared fields become properties, and outside of all fields there is no
sibling to be equal to. -/
theorem namesNothing_convertKind {mapper : Mapper} {kind : RuleKind} {object : SchemaObject}
    (noFields : ∀ fields limits, kind ≠ .object (some fields) limits)
    (converted : table.convertKind mapper kind {} = .ok (some object)) : object.NamesNothing := by
  unfold convertKind at converted
  split at converted
  · cases converted
    exact ⟨rfl, rfl, rfl⟩
  · rcases Except.eq_ok_of_map_eq_ok converted with ⟨fragment?, -, made⟩
    cases made
    exact ⟨rfl, rfl, rfl⟩
  · cases converted
    exact ⟨rfl, rfl, rfl⟩
  · exact absurd rfl (noFields _ _)
  · rcases Except.eq_ok_of_map_eq_ok converted with ⟨fragment?, -, made⟩
    cases made
    exact ⟨rfl, rfl, rfl⟩
  · rcases Except.eq_ok_of_map_eq_ok converted with ⟨schemas, -, made⟩
    cases made
    exact ⟨rfl, rfl, rfl⟩
  · rcases Except.eq_ok_of_map_eq_ok converted with ⟨schemas, -, made⟩
    split at made
    · cases made
    · cases made
      exact ⟨rfl, rfl, rfl⟩
  · cases converted
    exact SchemaObject.namesNothing_constant _ _
  · split at converted
    · cases converted
      exact SchemaObject.namesNothing_constant _ _
    · next sibling reached => cases reached
  · exact Mapper.namesNothing_plainSchema (Except.ok.inj converted)

/-- Outside of all fields, what is known of a rule for one value: a mapper gives it no
properties, and a function of the caller gives it any. -/
theorem namesNothing_of_convertRule {rule : Rule} {fragment : Fragment}
    (noFields : (Params.root rule).fieldRules? = none)
    (converted : table.convertRule rule = .ok (some fragment)) :
    ∃ object, fragment.schema = .inline object ∧
      ((∃ mapper, table.mapperFor rule.kind.tag = .ok (.own mapper) ∧ object.NamesNothing) ∨
        ∃ map, table.mapperFor rule.kind.tag = .ok (.caller map)) := by
  have other : ∀ fields limits, rule.kind ≠ .object (some fields) limits := by
    intro fields limits kind
    simp only [Params.fieldRules?, kind, reduceCtorEq] at noFields
  rcases convert_eq_some converted with ⟨object, rfl, ⟨mapper, served, made⟩ | ⟨map, served, -⟩⟩
  · have names := namesNothing_convertKind other made
    exact ⟨_, rfl, Or.inl ⟨mapper, served, names.properties, names.allOf, names.anyOf⟩⟩
  · exact ⟨_, rfl, Or.inr ⟨map, served⟩⟩

end MapperTable

theorem Schema.lifted_namesNothing {object : SchemaObject} (names : object.NamesNothing)
    (name : String) :
    (inline object).lifted name = .inline (object.lifted name) ∧
      (object.lifted name).NamesNothing := by
  have unnamed : object.isNamedObject = false := by
    rw [SchemaObject.isNamedObject, names.properties, List.isEmpty_nil, Bool.not_true,
      Bool.and_false]
  refine ⟨by rw [lifted_inline, unnamed, if_neg Bool.false_ne_true], ?_, ?_, ?_⟩
  · rw [SchemaObject.lifted, names.properties, List.map_nil]
  · rw [SchemaObject.lifted, names.allOf]
    rfl
  · rw [SchemaObject.lifted, names.anyOf]
    rfl

/-! ## The bodies of accepted routes -/

namespace OperationContext

variable {context : OperationContext} {store left : Store} {inputs : Inputs}

/-- The body of an accepted route.  Fields stand in the component of the action. -/
inductive TakesBody (context : OperationContext) (left : Store) : RequestBody → Prop where
  | fields {body : RequestBody} {action : String} {fields : Entries Rule} {notes : Notes}
      (standard : context.route.kind = .standard)
      (ruled : context.route.params.bind Params.fieldRules? = some (fields, notes))
      (schema : body.schema = .ref action)
      (stored : left.get? action = some ((Fragment.object
        (context.placed .body (context.shownFields fields)) notes).lifted action)) :
      TakesBody context left body
  | value {body : RequestBody} {rule : Rule} {fragment : Fragment} {action : String}
      (standard : context.route.kind = .standard)
      (given : context.route.params = some (.root rule))
      (noFields : (Params.root rule).fieldRules? = none)
      (converted : context.table.convertRule rule = .ok (some fragment))
      (schema : body.schema = fragment.schema.lifted action) : TakesBody context left body
  | stream (stream : context.route.kind = .stream) : TakesBody context left streamBody
  | files {body : RequestBody} {options : UploadOptions}
      (upload : context.route.kind = .multipart options)
      (schema : body.schema = .inline (context.fileSchema options)) : TakesBody context left body
  | filesAndFields {body : RequestBody} {options : UploadOptions} {action : String}
      {fields : Entries Rule} {notes : Notes}
      (upload : context.route.kind = .multipart options)
      (ruled : context.route.params.bind Params.fieldRules? = some (fields, notes))
      (schema : body.schema =
        .inline { allOf := [.inline (context.fileSchema options), .ref action] })
      (stored : left.get? action = some ((Fragment.object
        (context.shownFields fields) notes).lifted action)) : TakesBody context left body

theorem valueBody_eq_some {rule : Rule} {body : RequestBody}
    (succeeded : (context.valueBody rule).run store = (.ok (some body), left)) :
    ∃ fragment action, context.table.convertRule rule = .ok (some fragment) ∧
      body.schema = fragment.schema.lifted action := by
  unfold valueBody at succeeded
  split at succeeded
  · rcases Extraction.eq_ok_of_run_ofConversion_bind succeeded with ⟨fragment?, converted, rest⟩
    cases fragment? with
    | none => cases rest
    | some fragment =>
      rcases Extraction.eq_ok_of_run_ofConversion_bind rest with ⟨action, -, afterAction⟩
      have afterSchema := Extraction.eq_ok_of_run_ofStore_bind afterAction
      have made := Extraction.eq_of_run_pure afterSchema
      rw [Store.lift_eq] at made
      cases made
      exact ⟨fragment, action, converted, rfl⟩
  · cases succeeded

/-- The query of an accepted route shows some of the fields that are not in the path. -/
def ShowsInQuery (context : OperationContext) (parameters : List Parameter) : Prop :=
  ∃ shown : Entries Fragment, parameters = shown.map context.queryParameterOf ∧
    (shown = [] ∨ ∃ fields notes,
      context.route.params.bind Params.fieldRules? = some (fields, notes) ∧
        shown.Sublist (context.shownFields fields))

theorem showsInQuery_nil (context : OperationContext) : context.ShowsInQuery [] :=
  ⟨[], rfl, Or.inl rfl⟩

/-- What an accepted route takes besides its path parameters. -/
structure TakesOthers (context : OperationContext) (left : Store) (query : List Parameter)
    (body? : Option RequestBody) : Prop where
  query : context.ShowsInQuery query
  body : ∀ body ∈ body?, context.TakesBody left body

theorem takesOthers_nothing (context : OperationContext) (left : Store) :
    context.TakesOthers left [] none where
  query := context.showsInQuery_nil
  body := fun _ impossible => nomatch impossible

variable {params : Params} {fields : Entries Rule} {notes : Notes}

theorem takesOthers_of_fields (standard : context.route.kind = .standard)
    (given : context.route.params = some params) (ruled : params.fieldRules? = some (fields, notes))
    (accepted : context.inputs.run store = (.ok inputs, left)) {middle : Store}
    (others : context.standardInputs.run middle =
      (.ok (inputs.queryParameters, inputs.body), left)) :
    context.TakesOthers left inputs.queryParameters inputs.body := by
  have named : context.route.params.bind Params.fieldRules? = some (fields, notes) := by
    rw [given, Option.bind_some, ruled]
  rcases standardInputs_eq_ok given ruled others with ⟨converted, outside, query, body⟩
  have lifted : context.otherLiftings =
      context.queryLiftings (context.placed .query (context.shownFields fields)) ++
        context.bodyLiftings (context.placed .body (context.shownFields fields)) notes := by
    simp only [otherLiftings, given, ruled, standard, fieldsPlaced, placed,
      documentedFields_eq_shownFields outside]
  cases fieldsOutsidePath_eq_ok outside
  refine ⟨⟨_, query, Or.inr ⟨fields, notes, named, List.filter_sublist⟩⟩, fun taken present => ?_⟩
  rcases body with ⟨-, without⟩ | ⟨action, acts, made⟩
  · cases without.symm.trans present
  · rcases fieldBody?_eq_some (made.symm.trans present) with ⟨some, schema, -⟩
    exact .fields standard named schema (component_of_accepted accepted lifted some acts)

theorem takesOthers_of_standard (standard : context.route.kind = .standard)
    (accepted : context.inputs.run store = (.ok inputs, left)) {middle : Store}
    (others : context.standardInputs.run middle =
      (.ok (inputs.queryParameters, inputs.body), left)) :
    context.TakesOthers left inputs.queryParameters inputs.body := by
  cases given : context.route.params with
  | none =>
    simp only [standardInputs, given] at others
    rcases Prod.mk.inj (Extraction.eq_of_run_pure others) with ⟨query, body⟩
    rw [query, body]
    exact context.takesOthers_nothing left
  | some params =>
    cases ruled : params.fieldRules? with
    | some rules => exact takesOthers_of_fields standard given ruled accepted others
    | none =>
      cases params with
      | fields named notes => cases ruled
      | root rule =>
        simp only [standardInputs, given, ruled] at others
        rcases Extraction.eq_ok_of_run_bind others with ⟨body?, last, ran, afterBody⟩
        rcases Prod.mk.inj (Extraction.eq_of_run_pure afterBody) with ⟨query, body⟩
        rw [query, body]
        refine ⟨context.showsInQuery_nil, fun taken present => ?_⟩
        rw [Option.mem_def.mp present] at ran
        rcases valueBody_eq_some ran with ⟨fragment, action, converted, schema⟩
        exact .value standard given ruled converted schema

theorem takesOthers_of_stream (stream : context.route.kind = .stream) {middle : Store}
    (others : context.streamInputs.run middle =
      (.ok (inputs.queryParameters, inputs.body), left)) :
    context.TakesOthers left inputs.queryParameters inputs.body := by
  cases ruled : context.route.params.bind Params.fieldRules? with
  | none =>
    simp only [streamInputs, ruled] at others
    rcases Prod.mk.inj (Extraction.eq_of_run_pure others) with ⟨query, body⟩
    rw [query, body]
    refine ⟨context.showsInQuery_nil, fun taken present => ?_⟩
    cases present
    exact .stream stream
  | some rules =>
    rcases rules with ⟨fields, notes⟩
    rcases Option.bind_eq_some_iff.mp ruled with ⟨params, given, named⟩
    rcases streamInputs_eq_ok given named others with ⟨converted, outside, taken⟩
    rcases Prod.mk.inj taken with ⟨query, body⟩
    cases fieldsOutsidePath_eq_ok outside
    rw [query, body]
    refine ⟨⟨_, rfl, Or.inr ⟨fields, notes, ruled, List.Sublist.refl _⟩⟩, fun taken present => ?_⟩
    cases present
    exact .stream stream

theorem uploadFields_eq_some {rules : Entries Rule × Notes}
    (found : context.uploadFields = .ok (some rules)) :
    context.route.params.bind Params.fieldRules? = some rules := by
  unfold uploadFields at found
  split at found
  · cases found
  · next params given =>
    rw [given, Option.bind_some]
    split at found
    · next fields ruled =>
      cases found
      exact ruled
    · split at found <;> cases found

theorem takesBody_of_upload {options : UploadOptions}
    (upload : context.route.kind = .multipart options)
    (accepted : context.inputs.run store = (.ok inputs, left)) {middle : Store} {body : RequestBody}
    (succeeded : (context.uploadBody options).run middle = (.ok body, left)) :
    context.TakesBody left body := by
  rcases Extraction.eq_ok_of_run_bind succeeded with ⟨schema, last, ran, afterSchema⟩
  have same := congrArg RequestBody.schema (Extraction.eq_of_run_pure afterSchema)
  rcases Extraction.eq_ok_of_run_ofConversion_bind ran with ⟨rules?, found, afterRules⟩
  cases rules? with
  | none => exact .files upload (same.trans (Extraction.eq_of_run_pure afterRules))
  | some rules =>
    rcases rules with ⟨fields, notes⟩
    have named := uploadFields_eq_some found
    rcases Option.bind_eq_some_iff.mp named with ⟨params, given, ruled⟩
    rcases Extraction.eq_ok_of_run_ofConversion_bind afterRules with ⟨converted, outside, rest⟩
    have lifted : context.otherLiftings =
        [] ++ context.bodyLiftings (context.shownFields fields) notes := by
      simp only [otherLiftings, given, ruled, upload, List.nil_append,
        documentedFields_eq_shownFields outside]
    cases fieldsOutsidePath_eq_ok outside
    split at rest
    · exact .files upload (same.trans (Extraction.eq_of_run_pure rest))
    · next present =>
      have some := Bool.eq_false_iff.mpr present
      rcases Extraction.eq_ok_of_run_ofConversion_bind rest with ⟨action, required, afterAction⟩
      have acts := action_of_requiredAction_eq_ok required
      have afterObject := Extraction.eq_ok_of_run_ofStore_bind afterAction
      rw [Store.registerObject_eq some] at afterObject
      exact .filesAndFields upload named (same.trans (Extraction.eq_of_run_pure afterObject))
        (component_of_accepted accepted lifted some acts)

/-- Every accepted route takes fields of its own in the query, and one of the listed bodies. -/
theorem takesOthers_of_accepted (accepted : context.inputs.run store = (.ok inputs, left)) :
    context.TakesOthers left inputs.queryParameters inputs.body := by
  by_cases passes : context.route.joker = true ∧ context.route.action = none
  · rcases Extraction.eq_ok_of_run_bind accepted with ⟨pathParameters, middle, -, afterPath⟩
    simp only [passes, Option.isNone_none, Bool.and_self, if_true] at afterPath
    rw [Extraction.eq_of_run_pure afterPath]
    exact context.takesOthers_nothing left
  · rcases otherInputs_of_accepted passes accepted with ⟨middle, others⟩
    cases kind : context.route.kind with
    | standard =>
      simp only [otherInputs, kind] at others
      exact takesOthers_of_standard kind accepted others
    | stream =>
      simp only [otherInputs, kind] at others
      exact takesOthers_of_stream kind others
    | multipart options =>
      simp only [otherInputs, kind] at others
      rcases Extraction.eq_ok_of_run_bind others with ⟨body, last, ran, afterBody⟩
      rcases Prod.mk.inj (Extraction.eq_of_run_pure afterBody) with ⟨query, taken⟩
      have settled : last = left := congrArg Prod.snd afterBody
      rw [query, taken]
      refine ⟨context.showsInQuery_nil, fun made present => ?_⟩
      cases present
      exact takesBody_of_upload kind accepted (settled ▸ ran)

/-! ## Names inside bodies -/

/-- A body property may have the name of a path parameter in three cases: it is the file of an
upload, or a property of an alternative of parameters that are one value as a whole, or any
property of such a value where a function of the caller makes its schema. -/
inductive SharesName (context : OperationContext) (left : Store) (body : RequestBody)
    (name : String) : Prop where
  | file (options : UploadOptions) (upload : context.route.kind = .multipart options)
      (same : name = options.fileField.getD context.settings.multipartFileField) :
      SharesName context left body name
  | alternative (rule : Rule) (standard : context.route.kind = .standard)
      (given : context.route.params = some (.root rule))
      (noFields : (Params.root rule).fieldRules? = none) (mapper : Mapper)
      (served : context.table.mapperFor rule.kind.tag = .ok (.own mapper)) (object : SchemaObject)
      (inline : body.schema = .inline object) (part : Schema) (listed : part ∈ object.oneOf)
      (inside : part.HasProperty left name) : SharesName context left body name
  | brought (rule : Rule) (standard : context.route.kind = .standard)
      (given : context.route.params = some (.root rule))
      (noFields : (Params.root rule).fieldRules? = none)
      (map : Rule → Scope → Except Fault (Option SchemaObject))
      (served : context.table.mapperFor rule.kind.tag = .ok (.caller map))
      (inside : body.schema.HasProperty left name) : SharesName context left body name

/-- The fields that are shown have names of their own, none of them from the path. -/
theorem outside_of_mem_names {fields : Entries Rule} {shown : Entries Fragment}
    (some : shown.Sublist (context.shownFields fields)) {name : String}
    (member : name ∈ shown.names) : name ∉ context.placeholders := by
  rcases List.mem_map.mp member with ⟨field, listed, rfl⟩
  rcases declared_of_mem_shownFields (some.subset listed) with ⟨rule, -, outside, -⟩
  exact outside

/-- The component of fields has these fields as its properties, and nothing else. -/
theorem hasProperty_ref_iff {action name : String} {shown : Entries Fragment} {notes : Notes}
    (stored : left.get? action = some ((Fragment.object shown notes).lifted action)) :
    (Schema.ref action).HasProperty left name ↔ name ∈ shown.names := by
  have found : left.resolve (.ref action) = .ok ((Fragment.object shown notes).lifted action) := by
    simp only [Store.resolve, stored]
  have names : Entries.names ((Fragment.object shown notes).lifted action).properties =
      shown.names := by
    simp only [SchemaObject.lifted, Fragment.object, Fragment.schemas, Entries.mapValues,
      Entries.names, List.map_map, Function.comp_def]
  rw [Schema.hasProperty_iff_mem_names found rfl rfl rfl, names]

theorem hasProperty_fileSchema_iff {options : UploadOptions} {name : String} :
    (Schema.inline (context.fileSchema options)).HasProperty left name ↔
      name = options.fileField.getD context.settings.multipartFileField := by
  rw [Schema.hasProperty_iff_mem_names rfl rfl rfl rfl]
  exact List.mem_singleton

theorem sharesName_iff_of_upload {options : UploadOptions}
    (upload : context.route.kind = .multipart options) {body : RequestBody} {name : String} :
    context.SharesName left body name ↔
      name = options.fileField.getD context.settings.multipartFileField := by
  constructor
  · rintro (⟨others, given, same⟩ | ⟨-, standard, -⟩ | ⟨-, standard, -⟩)
    · cases upload.symm.trans given
      exact same
    · cases upload.symm.trans standard
    · cases upload.symm.trans standard
  · exact .file options upload

/-- Of the names in the path a body has those three, and no others. -/
theorem TakesBody.hasProperty_iff {body : RequestBody} (takes : context.TakesBody left body)
    {name : String} (inPath : name ∈ context.placeholders) :
    body.schema.HasProperty left name ↔ context.SharesName left body name := by
  cases takes with
  | fields standard ruled schema stored =>
    rw [schema, hasProperty_ref_iff stored]
    constructor
    · intro member
      exact absurd inPath (outside_of_mem_names List.filter_sublist member)
    · rintro (⟨options, upload, -⟩ | ⟨rule, -, given, noFields, -⟩ | ⟨rule, -, given, noFields, -⟩)
      · cases standard.symm.trans upload
      · rw [given, Option.bind_some, noFields] at ruled
        cases ruled
      · rw [given, Option.bind_some, noFields] at ruled
        cases ruled
  | value standard given noFields converted schema =>
    constructor
    · intro has
      rcases MapperTable.namesNothing_of_convertRule noFields converted with
        ⟨whole, inline, ⟨mapper, served, names⟩ | ⟨map, served⟩⟩
      · rcases Schema.lifted_namesNothing names _ with ⟨lifted, nothing⟩
        rw [inline, lifted] at schema
        rw [schema, Schema.hasProperty_iff rfl, nothing.properties, nothing.allOf,
          nothing.anyOf, List.append_nil] at has
        rcases has with named | ⟨part, listed, -⟩ | ⟨part, listed, inside⟩
        · cases named
        · cases listed
        · exact .alternative _ standard given noFields mapper served _ schema part listed inside
      · exact .brought _ standard given noFields map served has
    · rintro (⟨options, upload, -⟩ | ⟨-, -, -, -, -, -, object, same, part, listed, inside⟩ |
        ⟨-, -, -, -, -, -, inside⟩)
      · cases standard.symm.trans upload
      · rw [same]
        exact .alternative rfl (List.mem_append_left _ listed) inside
      · exact inside
  | stream stream =>
    have bytes : left.resolve streamBody.schema = .ok (.formatted "binary") := rfl
    rw [Schema.hasProperty_iff_mem_names bytes rfl rfl rfl]
    constructor
    · intro impossible
      cases impossible
    · rintro (⟨options, upload, -⟩ | ⟨-, standard, -⟩ | ⟨-, standard, -⟩)
      · cases stream.symm.trans upload
      · cases stream.symm.trans standard
      · cases stream.symm.trans standard
  | files upload schema =>
    rw [schema, hasProperty_fileSchema_iff, sharesName_iff_of_upload upload]
  | @filesAndFields _ options action fields notes upload ruled schema stored =>
    rw [sharesName_iff_of_upload upload, ← hasProperty_fileSchema_iff, schema]
    constructor
    · intro has
      rw [Schema.hasProperty_iff rfl] at has
      rcases has with named | ⟨part, listed, inside⟩ | ⟨part, listed, -⟩
      · cases named
      · rcases List.mem_pair.mp listed with rfl | rfl
        · exact inside
        · have member := (hasProperty_ref_iff stored).mp inside
          exact absurd inPath (outside_of_mem_names (List.Sublist.refl _) member)
      · cases listed
    · exact .combined rfl List.mem_cons_self

/-! ## Names of parameters -/

/-- The path parameters without documentation are one text for every placeholder. -/
theorem pathParameters_of_accepted (undocumented : context.docs.pathParameters = none)
    (accepted : context.inputs.run store = (.ok inputs, left)) :
    inputs.pathParameters = context.placeholders.map Parameter.ofPath := by
  rcases Extraction.eq_ok_of_run_bind accepted with ⟨found, middle, ran, afterPath⟩
  simp only [pathParameters, undocumented] at ran
  rw [← Extraction.eq_of_run_pure ran]
  split at afterPath
  · rw [Extraction.eq_of_run_pure afterPath]
  · rcases Extraction.eq_ok_of_run_bind afterPath with ⟨others, last, -, afterOthers⟩
    rw [Extraction.eq_of_run_pure afterOthers]

end OperationContext

/-- What tells the parameters of an operation apart. -/
def Parameter.key (parameter : Parameter) : String × ParameterLocation :=
  (parameter.name, parameter.location)

theorem Parameter.nodup_keys_iff {parameters : List Parameter} {location : ParameterLocation}
    (together : ∀ parameter ∈ parameters, parameter.location = location) :
    (parameters.map key).Nodup ↔ (parameters.map name).Nodup := by
  have keys : parameters.map key = (parameters.map name).map fun name => (name, location) := by
    rw [List.map_map]
    apply List.map_congr_left
    intro parameter member
    rw [key, together parameter member, Function.comp_apply]
  rw [keys]
  exact List.nodup_map_iff fun _ _ same => (Prod.mk.inj same).1

/-- Parameters of different locations never have the same key. -/
theorem Inputs.nodup_keys_iff {inputs : Inputs}
    (path : ∀ parameter ∈ inputs.pathParameters, parameter.location = .path)
    (query : ∀ parameter ∈ inputs.queryParameters, parameter.location = .query) :
    (inputs.parameters.map Parameter.key).Nodup ↔
      (inputs.pathParameters.map Parameter.name).Nodup ∧
        (inputs.queryParameters.map Parameter.name).Nodup := by
  rw [parameters, List.map_append, List.nodup_append, Parameter.nodup_keys_iff path,
    Parameter.nodup_keys_iff query]
  refine ⟨fun distinct => ⟨distinct.1, distinct.2.1⟩, fun distinct =>
    ⟨distinct.1, distinct.2, ?_⟩⟩
  intro key inPath other inQuery same
  rcases List.mem_map.mp inPath with ⟨parameter, listed, rfl⟩
  rcases List.mem_map.mp inQuery with ⟨asked, member, rfl⟩
  have locations : parameter.location = asked.location := (Prod.mk.inj same).2
  rw [path parameter listed, query asked member] at locations
  cases locations

/-- No field of the route is declared twice. -/
def Route.NamesFieldsOnce (route : Route) : Prop :=
  ∀ fields notes, route.params.bind Params.fieldRules? = some (fields, notes) →
    fields.names.Nodup

namespace OperationContext

variable {context : OperationContext} {store left : Store} {inputs : Inputs}

/-- Shown fields keep their names and their order. -/
theorem names_shownFields (fields : Entries Rule) :
    (context.shownFields fields).names.Sublist fields.names := by
  have kept : ∀ rules : Entries Rule,
      (Entries.names (rules.filterMap (context.table.shown? (.ofFields fields)))).Sublist
        rules.names := by
    intro rules
    induction rules with
    | nil => exact List.Sublist.slnil
    | cons field rest inductionHypothesis =>
      rw [List.filterMap_cons]
      split
      · exact inductionHypothesis.cons _
      · next shown appears =>
        rw [Entries.names_cons, (context.table.shown?_eq_some appears).1]
        exact inductionHypothesis.cons_cons _
  exact (kept _).trans (List.filter_sublist.map Prod.fst)

theorem ShowsInQuery.nodup_names {parameters : List Parameter}
    (shows : context.ShowsInQuery parameters) (once : context.route.NamesFieldsOnce) :
    (parameters.map Parameter.name).Nodup := by
  rcases shows with ⟨shown, rfl, nothing | ⟨fields, notes, ruled, some⟩⟩
  · rw [nothing]
    exact List.nodup_nil
  · rw [List.map_map]
    exact (once fields notes ruled).sublist
      ((some.map Prod.fst).trans (names_shownFields fields))

theorem ShowsInQuery.outside {parameters : List Parameter}
    (shows : context.ShowsInQuery parameters) :
    ∀ parameter ∈ parameters,
      parameter.location = .query ∧ parameter.name ∉ context.placeholders := by
  rcases shows with ⟨shown, rfl, nothing | ⟨fields, notes, ruled, some⟩⟩
  · rw [nothing]
    exact List.forall_mem_nil _
  · intro parameter member
    rcases List.mem_map.mp member with ⟨field, listed, rfl⟩
    exact ⟨rfl, outside_of_mem_names some (List.mem_map_of_mem listed)⟩

/-- A route that has been read declares no field twice, as the next theorem asks of it. -/
theorem namesFieldsOnce_of_readJson {value : Json} (orderly : value.Everywhere Json.IsOrderly)
    {route : Route} (read : Route.read (Node.ofJson value) = .ok route) :
    route.NamesFieldsOnce := by
  intro fields notes ruled
  rcases Option.bind_eq_some_iff.mp ruled with ⟨params, given, named⟩
  exact ((Route.comparable_of_readJson orderly read).params params given).names named

/-- The path parameters of an accepted route have the names of its placeholders, as often as
these stand in the path.  So a name repeats in one location only with a placeholder.  No
parameter of the query is named like one of the path, and nothing in the body either but the
file of an upload, what alternatives of a whole value have, and what a function of the caller
gives to a whole value. -/
theorem names_of_accepted (undocumented : context.docs.pathParameters = none)
    (once : context.route.NamesFieldsOnce)
    (accepted : context.inputs.run store = (.ok inputs, left)) :
    inputs.pathParameters.map Parameter.name = context.placeholders ∧
      ((inputs.parameters.map Parameter.key).Nodup ↔ context.placeholders.Nodup) ∧
      ∀ parameter ∈ inputs.pathParameters,
        (∀ other ∈ inputs.queryParameters, other.name ≠ parameter.name) ∧
        ∀ body ∈ inputs.body,
          (body.schema.HasProperty left parameter.name ↔
            context.SharesName left body parameter.name) := by
  have path := pathParameters_of_accepted undocumented accepted
  rcases takesOthers_of_accepted accepted with ⟨query, bodies⟩
  have names : inputs.pathParameters.map Parameter.name = context.placeholders := by
    rw [path, List.map_map]
    exact List.map_id _
  refine ⟨names, ?_, fun parameter member => ?_⟩
  · have inPath : ∀ parameter ∈ inputs.pathParameters, parameter.location = .path := by
      rw [path]
      exact List.forall_mem_map.mpr fun _ _ => rfl
    have inQuery := fun parameter member => (query.outside parameter member).1
    rw [Inputs.nodup_keys_iff inPath inQuery, names, and_iff_left (query.nodup_names once)]
  · rw [path] at member
    rcases List.mem_map.mp member with ⟨name, inPath, rfl⟩
    refine ⟨fun other asked same => ?_, fun body taken => ?_⟩
    · exact (query.outside other asked).2 (same ▸ inPath)
    · exact (bodies body taken).hasProperty_iff inPath

/-- The order of a route with a field in every place is known by its number. -/
theorem names_of_accepted_ordering :
    ∃ inputs left, ordering.docs.pathParameters = none ∧ ordering.route.NamesFieldsOnce ∧
      ordering.inputs.run {} = (.ok inputs, left) ∧
      inputs.pathParameters.map Parameter.name = ["id"] ∧
      (inputs.parameters.map Parameter.key).Nodup ∧
      (∀ other ∈ inputs.queryParameters, other.name ≠ "id") ∧
      ∀ body ∈ inputs.body, ¬body.schema.HasProperty left "id" := by
  have given : ordering.route.params = some (.fields Rule.order {}) := rfl
  have standard : ordering.route.kind = .standard := rfl
  have accepted :=
    run_inputs_fields standard rfl rfl given rfl fieldsOutsidePath_ordering _ _ rfl rfl {}
  have once : ordering.route.NamesFieldsOnce := by
    intro fields notes ruled
    cases ruled
    decide
  have placeholders : ordering.placeholders = ["id"] := by decide
  rcases names_of_accepted rfl once accepted with ⟨path, keys, apart⟩
  have id := apart (.ofPath "id") (by rw [placeholders]; exact List.mem_cons_self)
  refine ⟨_, _, rfl, once, accepted, path.trans placeholders, keys.mpr ?_, id.1, ?_⟩
  · rw [placeholders]
    decide
  · intro body taken has
    cases (id.2 body taken).mp has with
    | file options upload same => cases upload
    | alternative rule _ own => cases own
    | brought rule _ own => cases own

/-! ## Names that are shared -/

/-- A route whose path repeats a placeholder. -/
def repeating : OperationContext where
  table := .builtin
  settings := {}
  method := .get
  fullPath := "/a/\x7bid\x7d/b/\x7bid\x7d"
  route := { action := some "x" }
  docs := {}

/-- A route whose path has the name of the field for its files. -/
def uploading : OperationContext where
  table := .builtin
  settings := {}
  method := .post
  fullPath := "/files/\x7bfile\x7d"
  route := { action := some "x", kind := .multipart {} }
  docs := {}

/-- A route whose parameters are one value as a whole. -/
def takingWhole (table : MapperTable) (rule : Rule) : OperationContext where
  table := table
  settings := {}
  method := .post
  fullPath := "/x/\x7bid\x7d"
  route := { action := some "x", params := some (.root rule) }
  docs := {}

/-- An object with the name of the placeholder as its only property. -/
def identified : SchemaObject :=
  ObjectLimits.schema {} [("id", { schema := .inline (TextLimits.schema {}), optional := false })]

/-- The value is an object in its only alternative. -/
def choosing : OperationContext :=
  takingWhole .builtin { kind := .multi [.object [("id", .text)]] }

/-- The value is of any kind, and a function of the caller makes such an object of it. -/
def bringing : OperationContext :=
  takingWhole (MapperTable.builtin.insert .any (.caller fun _ _ => .ok (some identified)))
    { kind := .any }

theorem repeating_repeats :
    ∃ inputs left, repeating.inputs.run {} = (.ok inputs, left) ∧
      ¬(inputs.parameters.map Parameter.key).Nodup := by
  have placeholders : repeating.placeholders = ["id", "id"] := by decide
  refine ⟨{ pathParameters := repeating.placeholders.map .ofPath }, {}, rfl, ?_⟩
  rw [placeholders]
  decide

theorem uploading_shares :
    ∃ inputs left, uploading.inputs.run {} = (.ok inputs, left) ∧
      .ofPath "file" ∈ inputs.pathParameters ∧
      ∃ body ∈ inputs.body, body.schema.HasProperty left "file" := by
  have placeholders : uploading.placeholders = ["file"] := by decide
  let body : RequestBody :=
    { contentTypes := ["multipart/form-data"]
      schema := .inline (uploading.fileSchema {})
      required := true }
  refine ⟨{ pathParameters := uploading.placeholders.map .ofPath, body := some body }, {}, rfl, ?_,
    body, rfl, hasProperty_fileSchema_iff.mpr rfl⟩
  rw [placeholders]
  exact List.mem_cons_self

theorem fragment?_choosing :
    Rule.fragment? { kind := .multi [.object [("id", .text)]] } {} {} =
      some { schema := .inline (.oneOfThese [.inline identified]), optional := false } := by
  have fields : Fragment.ofFields [("id", .text)] =
      [("id", { schema := .inline (TextLimits.schema {}), optional := false })] := by
    simp only [Fragment.ofFields, Fragment.ofEntries, List.filterMap_cons, List.filterMap_nil,
      Rule.fragment?_text, Option.map_some]
  rw [Rule.fragment?_eq]
  simp only [RuleKind.shape?, Fragment.schemasOf, List.filterMap_cons, List.filterMap_nil,
    Rule.fragment?_object, fields]
  rfl

/-- The body is the value as it is converted. -/
theorem run_inputs_takingWhole {table : MapperTable} {rule : Rule} {fragment : Fragment}
    (noFields : (Params.root rule).fieldRules? = none)
    (converted : table.convertRule rule = .ok (some fragment)) :
    (takingWhole table rule).inputs.run {} =
      (.ok
        { pathParameters := [.ofPath "id"]
          body := some
            { contentTypes := ["application/json"]
              schema := fragment.schema.lifted "x"
              required := !fragment.optional } },
        ({} : Store).record (fragment.schema.registrations "x")) := by
  have placeholders : (takingWhole table rule).placeholders = ["id"] := by
    change Path.placeholders "/x/\x7bid\x7d" = ["id"]
    decide
  have others : (takingWhole table rule).otherInputs = (do
      return ([], ← (takingWhole table rule).valueBody rule)) := by
    change (takingWhole table rule).standardInputs = _
    have given : (takingWhole table rule).route.params = some (.root rule) := rfl
    simp only [standardInputs, given, noFields]
  have undocumented : (takingWhole table rule).pathParameters = pure [.ofPath "id"] := by
    change pure ((takingWhole table rule).placeholders.map Parameter.ofPath) = _
    rw [placeholders]
    rfl
  have sends : (takingWhole table rule).sendsBody = true := rfl
  have action : (takingWhole table rule).requiredAction = .ok "x" := rfl
  have acts : ((takingWhole table rule).route.joker &&
      (takingWhole table rule).route.action.isNone) = false := rfl
  have sameTable : (takingWhole table rule).table = table := rfl
  simp only [inputs, undocumented, others, valueBody, sends, action, acts, sameTable, converted,
    Extraction.run_bind, Extraction.run_pure, Extraction.run_ofConversion,
    Extraction.run_ofStore, Store.lift_eq, if_true, Bool.false_eq_true, if_false]
  rfl

theorem registrations_identified (name : String) : identified.registrations name = [] := by
  rw [SchemaObject.registrations_of_properties rfl]
  change Schema.registrationsOf [(componentName name "id", .typed .string)] = _
  rw [Schema.registrationsOf_cons, Schema.registrationsOf_nil, List.append_nil]
  exact Schema.registrations_typed _ _

theorem choosing_shares :
    ∃ inputs left, choosing.inputs.run {} = (.ok inputs, left) ∧
      .ofPath "id" ∈ inputs.pathParameters ∧
      ∃ body ∈ inputs.body, body.schema.HasProperty left "id" := by
  let whole : Schema := .inline (.oneOfThese [.inline identified])
  have converted : MapperTable.builtin.convertRule { kind := .multi [.object [("id", .text)]] } =
      .ok (some { schema := whole, optional := false }) :=
    (MapperTable.convert_builtin _ {} {}).trans (congrArg Except.ok fragment?_choosing)
  have registered : whole.registrations "x" = [("x.0", identified.lifted "x.0")] := by
    rw [Schema.registrations_inline]
    change Schema.registrationsOf [("x.0", .inline identified)] ++ [] = _
    rw [Schema.registrationsOf_cons, Schema.registrationsOf_nil, Schema.registrations_inline,
      registrations_identified]
    rfl
  have lifted : whole.lifted "x" = .inline { oneOf := [.ref "x.0"] } := by
    rw [Schema.lifted_inline]
    change Schema.inline { oneOf := [(Schema.inline identified).lifted "x.0"] } = _
    rw [Schema.lifted_inline]
    rfl
  have stored : (({} : Store).record (whole.registrations "x")).resolve (.ref "x.0") =
      .ok (identified.lifted "x.0") := by
    rw [registered]
    rfl
  refine ⟨_, _, run_inputs_takingWhole rfl converted, List.mem_cons_self, _, rfl, ?_⟩
  change (whole.lifted "x").HasProperty _ "id"
  rw [lifted]
  refine .alternative rfl List.mem_cons_self (.own stored ?_)
  exact List.mem_cons_self

theorem bringing_shares :
    ∃ inputs left, bringing.inputs.run {} = (.ok inputs, left) ∧
      .ofPath "id" ∈ inputs.pathParameters ∧
      ∃ body ∈ inputs.body, body.schema.HasProperty left "id" := by
  have converted :
      (MapperTable.builtin.insert .any (.caller fun _ _ => .ok (some identified))).convertRule
        { kind := .any } = .ok (some { schema := .inline identified, optional := false }) := by
    have served : (MapperTable.builtin.insert .any
        (.caller fun _ _ => .ok (some identified))).mapperFor .any =
          .ok (.caller fun _ _ => .ok (some identified)) := rfl
    simp only [MapperTable.convertRule, MapperTable.convert, RuleKind.tag, served, Except.map]
    rfl
  have stored : (({} : Store).record ((Schema.inline identified).registrations "x")).resolve
      (.ref "x") = .ok (identified.lifted "x") := by
    rw [Schema.registrations_inline, registrations_identified]
    rfl
  refine ⟨_, _, run_inputs_takingWhole rfl converted, List.mem_cons_self, _, rfl, ?_⟩
  change ((Schema.inline identified).lifted "x").HasProperty _ "id"
  rw [Schema.lifted_inline]
  exact .own stored List.mem_cons_self

/-- A repeated placeholder repeats a parameter, and each kind of body that may share a name
with the path does so for some route. -/
theorem names_are_shared :
    (∃ inputs left, repeating.inputs.run {} = (.ok inputs, left) ∧
      ¬(inputs.parameters.map Parameter.key).Nodup) ∧
    (∃ inputs left, uploading.inputs.run {} = (.ok inputs, left) ∧
      .ofPath "file" ∈ inputs.pathParameters ∧
      ∃ body ∈ inputs.body, body.schema.HasProperty left "file") ∧
    (∃ inputs left, choosing.inputs.run {} = (.ok inputs, left) ∧
      .ofPath "id" ∈ inputs.pathParameters ∧
      ∃ body ∈ inputs.body, body.schema.HasProperty left "id") ∧
    ∃ inputs left, bringing.inputs.run {} = (.ok inputs, left) ∧
      .ofPath "id" ∈ inputs.pathParameters ∧
      ∃ body ∈ inputs.body, body.schema.HasProperty left "id" :=
  ⟨repeating_repeats, uploading_shares, choosing_shares, bringing_shares⟩

end OperationContext
end RouteDocs
