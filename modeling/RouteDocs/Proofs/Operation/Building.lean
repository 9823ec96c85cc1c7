import RouteDocs.Proofs.Operation.Placement

namespace RouteDocs

/-!
# Which operations can be built

With the built-in table no conversion fails, and a reference to a component is
looked up right after the component is stored.  A body is worked out only for a
route with an action, because a documented route without one takes nothing but
path parameters.  One obstacle is left: the fields that go with an upload must
be known, so its parameters cannot be one value, unless that value is an object.

`builds` and `build_eq_error` say that this is the only obstacle, and what is
reported then.  Other tables can lack a mapper; nothing is said of them here.
-/

namespace Extraction

variable {α β : Type}

/-- On every store the computation succeeds. -/
def Succeeds (extraction : Extraction α) : Prop :=
  ∀ store : Store, ∃ value left, extraction.run store = (.ok value, left)

namespace Succeeds

theorem pure (value : α) : Succeeds (Pure.pure value) :=
  fun store => ⟨value, store, rfl⟩

theorem ofStore (change : Store → α × Store) : Succeeds (Extraction.ofStore change) :=
  fun store => ⟨(change store).1, (change store).2, rfl⟩

theorem of_yields {extraction : Extraction α} {value : α} {registrations : Registrations}
    (yields : extraction.Yields value registrations) : extraction.Succeeds :=
  fun store => ⟨value, _, yields store⟩

theorem bind {first : Extraction α} {next : α → Extraction β} (succeeds : first.Succeeds)
    (continues : ∀ value, (next value).Succeeds) : (first >>= next).Succeeds := by
  intro store
  obtain ⟨value, middle, ran⟩ := succeeds store
  obtain ⟨result, left, finished⟩ := continues value middle
  refine ⟨result, left, ?_⟩
  rw [run_bind, ran]
  exact finished

/-- A conversion that has succeeded hands its value on. -/
theorem bind_ofConversion {result : Except Fault α} {value : α} (converted : result = .ok value)
    {next : α → Extraction β} (continues : (next value).Succeeds) :
    (Extraction.ofConversion result >>= next).Succeeds := by
  intro store
  obtain ⟨final, left, finished⟩ := continues store
  refine ⟨final, left, ?_⟩
  rw [run_bind, run_ofConversion, converted]
  exact finished

theorem mapM {items : List β} {step : β → Extraction α}
    (succeeds : ∀ item ∈ items, (step item).Succeeds) : (items.mapM step).Succeeds := by
  induction items with
  | nil =>
    rw [List.mapM_nil]
    exact pure []
  | cons item rest inductionHypothesis =>
    rw [List.mapM_cons]
    apply bind (succeeds item List.mem_cons_self)
    intro value
    apply bind (inductionHypothesis fun other member =>
      succeeds other (List.mem_cons_of_mem item member))
    exact fun values => pure (value :: values)

end Succeeds

/-- What comes after a success decides whether the whole fails. -/
theorem Fails.bind {first : Extraction α} {next : α → Extraction β} {fault : Fault}
    (succeeds : first.Succeeds) (fails : ∀ value, (next value).Fails fault) :
    (first >>= next).Fails fault := by
  intro store
  obtain ⟨value, middle, ran⟩ := succeeds store
  obtain ⟨left, failed⟩ := fails value middle
  exact ⟨left, by rw [run_bind, ran]; exact failed⟩

theorem Fails.bind_first {first : Extraction α} {fault : Fault} (fails : first.Fails fault)
    (next : α → Extraction β) : (first >>= next).Fails fault := by
  intro store
  obtain ⟨left, failed⟩ := fails store
  exact ⟨left, by rw [run_bind, failed]⟩

end Extraction

/-- A file upload for an action whose parameters are one value other than an object. -/
structure Route.UploadsValue (route : Route) : Prop where
  bound : route.action.isSome = true
  upload : ∃ options, route.kind = .multipart options
  value : ∃ rule, route.params = some (.root rule) ∧ rule.kind.tag ≠ .object

namespace OperationContext

variable {context : OperationContext}

theorem convertRule_eq_ok (builtin : context.table = .builtin) (rule : Rule) :
    context.table.convertRule rule = .ok (rule.fragment? {} {}) := by
  rw [builtin]
  exact MapperTable.convert_builtin rule {} {}

theorem exists_fieldsOutsidePath (builtin : context.table = .builtin) (fields : Entries Rule) :
    ∃ converted, context.fieldsOutsidePath fields = .ok converted := by
  unfold fieldsOutsidePath
  rw [builtin, MapperTable.convertFields_builtin]
  exact ⟨_, rfl⟩

theorem requiredAction_eq_ok {action : String} (named : context.route.action = some action) :
    context.requiredAction = .ok action := by
  rw [requiredAction, named]

/-! ## What always succeeds -/

theorem documentedParameter_succeeds (builtin : context.table = .builtin)
    (declared : PathParameter) : (context.documentedParameter declared).Succeeds := by
  unfold documentedParameter
  cases declared.rule with
  | none => exact .pure _
  | some rule =>
    apply Extraction.Succeeds.bind_ofConversion (convertRule_eq_ok builtin rule)
    cases rule.fragment? {} {} with
    | none => exact .pure _
    | some fragment => exact .bind (.ofStore _) fun schema => .pure _

theorem pathParameters_succeed (builtin : context.table = .builtin) :
    context.pathParameters.Succeeds := by
  unfold pathParameters
  cases context.docs.pathParameters with
  | none => exact .pure _
  | some declared => exact .mapM fun parameter _ => documentedParameter_succeeds builtin parameter

theorem streamInputs_succeed (builtin : context.table = .builtin) :
    context.streamInputs.Succeeds := by
  unfold streamInputs
  split
  · exact .pure _
  · next fields notes _ =>
    obtain ⟨converted, outside⟩ := exists_fieldsOutsidePath builtin fields
    apply Extraction.Succeeds.bind_ofConversion outside
    exact .bind (.ofStore _) fun parameters => .pure _

theorem valueBody_succeeds (builtin : context.table = .builtin) {action : String}
    (named : context.route.action = some action) (rule : Rule) :
    (context.valueBody rule).Succeeds := by
  unfold valueBody
  split
  · apply Extraction.Succeeds.bind_ofConversion (convertRule_eq_ok builtin rule)
    cases rule.fragment? {} {} with
    | none => exact .pure _
    | some fragment =>
      apply Extraction.Succeeds.bind_ofConversion (requiredAction_eq_ok named)
      exact .bind (.ofStore _) fun schema => .pure _
  · exact .pure _

theorem standardInputs_succeed (builtin : context.table = .builtin) {action : String}
    (named : context.route.action = some action) : context.standardInputs.Succeeds := by
  unfold standardInputs
  split
  · exact .pure _
  · split
    · next fields notes _ =>
      obtain ⟨converted, outside⟩ := exists_fieldsOutsidePath builtin fields
      apply Extraction.Succeeds.bind_ofConversion outside
      apply Extraction.Succeeds.bind (.ofStore _)
      intro parameters
      exact .bind (.of_yields (fieldBody_yields named _ notes)) fun body => .pure _
    · split
      · exact .bind (valueBody_succeeds builtin named _) fun body => .pure _
      · exact .pure _

/-! ## Uploads -/

theorem uploadFields_eq_error (uploads : context.route.UploadsValue) :
    context.uploadFields = .error (.multipartRoot context.fullPath) := by
  obtain ⟨rule, given, other⟩ := uploads.value
  have noFields : (Params.root rule).fieldRules? = none := by
    simp only [Params.fieldRules?]
    split
    · next same =>
      rw [same] at other
      exact absurd rfl other
    · rfl
  have noObject : (Params.root rule).isObjectRule = false := beq_eq_false_iff_ne.mpr other
  simp only [uploadFields, given, noFields, noObject, Bool.false_eq_true, if_false]

/-- The parameters of any other upload are fields, an object or nothing. -/
theorem exists_uploadFields {options : UploadOptions}
    (upload : context.route.kind = .multipart options) (bound : context.route.action.isSome = true)
    (allowed : ¬context.route.UploadsValue) :
    ∃ fields?, context.uploadFields = .ok fields? := by
  unfold uploadFields
  cases given : context.route.params with
  | none => exact ⟨none, rfl⟩
  | some params =>
    cases ruled : params.fieldRules? with
    | some fields => exact ⟨some fields, by simp only [ruled]⟩
    | none =>
      cases params with
      | fields named notes => cases ruled
      | root rule =>
        have object : rule.kind.tag = .object := by
          by_contra other
          exact allowed ⟨bound, ⟨options, upload⟩, rule, given, other⟩
        have accepted : (Params.root rule).isObjectRule = true := beq_iff_eq.mpr object
        exact ⟨none, by simp only [ruled, accepted, if_true]⟩

theorem uploadSchema_succeeds (builtin : context.table = .builtin) {action : String}
    (named : context.route.action = some action) {options : UploadOptions}
    {fields? : Option (Entries Rule × Notes)} (accepted : context.uploadFields = .ok fields?) :
    (context.uploadSchema options).Succeeds := by
  unfold uploadSchema
  apply Extraction.Succeeds.bind_ofConversion accepted
  rcases fields? with _ | ⟨fields, notes⟩
  · exact .pure _
  · obtain ⟨converted, outside⟩ := exists_fieldsOutsidePath builtin fields
    apply Extraction.Succeeds.bind_ofConversion outside
    split
    · exact .pure _
    · apply Extraction.Succeeds.bind_ofConversion (requiredAction_eq_ok named)
      exact .bind (.ofStore _) fun reference => .pure _

/-! ## The operation of a documented route -/

theorem otherInputs_succeed (builtin : context.table = .builtin) {action : String}
    (named : context.route.action = some action) (allowed : ¬context.route.UploadsValue) :
    context.otherInputs.Succeeds := by
  unfold otherInputs
  cases kind : context.route.kind with
  | stream => exact streamInputs_succeed builtin
  | standard => exact standardInputs_succeed builtin named
  | multipart options =>
    have bound : context.route.action.isSome = true := by rw [named, Option.isSome_some]
    obtain ⟨fields?, accepted⟩ := exists_uploadFields kind bound allowed
    have schema : (context.uploadSchema options).Succeeds :=
      uploadSchema_succeeds builtin named accepted
    exact .bind (.bind schema fun _ => .pure _) fun body => .pure _

theorem inputs_succeed (builtin : context.table = .builtin)
    (documented : context.route.isDocumented = true) (allowed : ¬context.route.UploadsValue) :
    context.inputs.Succeeds := by
  unfold inputs
  apply Extraction.Succeeds.bind (pathParameters_succeed builtin)
  intro pathParameters
  split
  · exact .pure _
  · next acts =>
    obtain ⟨action, named⟩ : ∃ action, context.route.action = some action := by
      cases same : context.route.action with
      | some action => exact ⟨action, rfl⟩
      | none =>
        rw [Route.isDocumented, same, Option.isSome_none, Bool.false_or] at documented
        rw [documented, same] at acts
        exact absurd rfl acts
    exact .bind (otherInputs_succeed builtin named allowed) fun others => .pure _

/-- Every other documented route can be built. -/
theorem builds (builtin : context.table = .builtin)
    (documented : context.route.isDocumented = true) (allowed : ¬context.route.UploadsValue) :
    ∃ operation built, context.build = .ok (operation, built) := by
  obtain ⟨inputs, left, ran⟩ := inputs_succeed builtin documented allowed {}
  exact ⟨context.operation inputs, left, by simp only [build, ran]⟩

/-- An upload of one value is refused, under the path of the route. -/
theorem build_eq_error (builtin : context.table = .builtin)
    (uploads : context.route.UploadsValue) :
    context.build = .error (.multipartRoot context.fullPath) := by
  obtain ⟨options, upload⟩ := uploads.upload
  have acts : (context.route.joker && context.route.action.isNone) = false := by
    rw [Option.isNone_eq_false_iff.mpr uploads.bound, Bool.and_false]
  have schema : (context.uploadSchema options).Fails (.multipartRoot context.fullPath) := by
    apply Extraction.Fails.bind_first
    rw [uploadFields_eq_error uploads]
    exact fun store => ⟨store, rfl⟩
  have others : context.otherInputs.Fails (.multipartRoot context.fullPath) := by
    simp only [otherInputs, upload]
    exact .bind_first (.bind_first schema _) _
  have whole : context.inputs.Fails (.multipartRoot context.fullPath) := by
    apply Extraction.Fails.bind (pathParameters_succeed builtin)
    intro pathParameters
    simp only [acts, Bool.false_eq_true, if_false]
    exact .bind_first others _
  obtain ⟨left, failed⟩ := whole {}
  simp only [build, failed]

end OperationContext
end RouteDocs
