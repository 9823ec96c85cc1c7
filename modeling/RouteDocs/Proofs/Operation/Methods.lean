import Mathlib.Data.List.Basic
import RouteDocs.Proofs.Operation.Components
import RouteDocs.Proofs.Schema.Same

namespace RouteDocs

/-!
# The methods of one route store the same

What an operation stores depends on its method only where the method decides
between query and body.  A field is lifted under the same name in both places,
so the registrations of two methods can differ only in the object or the value
of the body.  The fields in the body of one method are moreover among those of
the other.  Hence two body objects that compare as the same are identical, and
a component that a method passes over as a repetition is not lost.
-/

namespace OperationContext

def forMethod (context : OperationContext) (method : Method) : OperationContext :=
  { context with method := method }

variable (context : OperationContext)

@[simp] theorem route_forMethod (method : Method) :
    (context.forMethod method).route = context.route := rfl

/-- The method decides nothing where the route takes bytes or files. -/
theorem otherLiftings_forMethod (fixed : context.route.kind ≠ .standard) (method : Method) :
    (context.forMethod method).otherLiftings = context.otherLiftings := by
  unfold otherLiftings
  rw [route_forMethod]
  cases context.route.params with
  | none => rfl
  | some params =>
    cases kind : context.route.kind with
    | standard => exact absurd kind fixed
    | stream =>
      dsimp only
      cases params.fieldRules? <;> rfl
    | multipart options =>
      dsimp only
      cases params.fieldRules? <;> rfl

theorem mem_registrations_iff {entry : String × SchemaObject} :
    entry ∈ context.registrations ↔
      entry ∈ Schema.registrationsOf context.pathLiftings ∨
        ¬(context.route.joker && context.route.action.isNone) = true ∧
          entry ∈ Schema.registrationsOf context.otherLiftings := by
  unfold registrations liftings
  rw [Schema.registrationsOf_append, List.mem_append]
  by_cases plain : (context.route.joker && context.route.action.isNone) = true
  · simp [plain]
  · simp [plain]

/-! ## Fields of a route -/

/-- The fields in the body register what they register in the query, and then their object. -/
theorem registrationsOf_bodyLiftings {fields : Entries Fragment} {notes : Notes} {action : String}
    (named : context.route.action = some action) :
    Schema.registrationsOf (context.bodyLiftings fields notes) =
      Schema.registrationsOf (context.queryLiftings fields) ++
        if fields.isEmpty then []
        else [(action, (Fragment.object fields notes).lifted action)] := by
  cases present : fields.isEmpty with
  | true =>
    obtain rfl := List.isEmpty_iff.mp present
    rfl
  | false =>
    rw [context.bodyLiftings_of_action present notes named, Schema.registrationsOf_cons,
      Schema.registrationsOf_nil, List.append_nil, Schema.registrations_inline,
      if_pos (Fragment.isNamedObject_object notes present), SchemaObject.registrations,
      Fragment.placedParts_object]
    simp only [queryLiftings, named, Option.getD_some, Bool.false_eq_true, if_false]

theorem mem_registrationsOf_queryLiftings {fields : Entries Fragment}
    {entry : String × SchemaObject} :
    entry ∈ Schema.registrationsOf (context.queryLiftings fields) ↔
      ∃ field ∈ fields, entry ∈ field.2.schema.registrations
        (componentName (context.route.action.getD context.fullPath) field.1) := by
  simp only [Schema.registrationsOf, queryLiftings, List.flatMap_map, List.mem_flatMap]

/-- Every field goes to the query or to the body, and is registered alike in both. -/
theorem mem_registrationsOf_fieldsPlaced {fields : Entries Rule} {entry : String × SchemaObject} :
    entry ∈ Schema.registrationsOf (context.queryLiftings (context.documentedFields fields)) ↔
      entry ∈ Schema.registrationsOf (context.queryLiftings (context.fieldsPlaced .query fields)) ∨
      entry ∈ Schema.registrationsOf
        (context.queryLiftings (context.fieldsPlaced .body fields)) := by
  simp only [mem_registrationsOf_queryLiftings]
  constructor
  · rintro ⟨field, listed, registered⟩
    cases place : context.placement field.1 with
    | query =>
      exact Or.inl ⟨field, List.mem_filter.mpr ⟨listed, by rw [place]; rfl⟩, registered⟩
    | body => exact Or.inr ⟨field, List.mem_filter.mpr ⟨listed, by rw [place]; rfl⟩, registered⟩
  · rintro (⟨field, placed, registered⟩ | ⟨field, placed, registered⟩)
    · exact ⟨field, (List.mem_filter.mp placed).1, registered⟩
    · exact ⟨field, (List.mem_filter.mp placed).1, registered⟩

/-- What a route with fields registers besides its path: what the fields
register, wherever they go, and the object of the body. -/
theorem mem_registrationsOf_otherLiftings {params : Params} {fields : Entries Rule} {notes : Notes}
    {action : String} (given : context.route.params = some params)
    (ruled : params.fieldRules? = some (fields, notes)) (standard : context.route.kind = .standard)
    (named : context.route.action = some action) (entry : String × SchemaObject) :
    entry ∈ Schema.registrationsOf context.otherLiftings ↔
      entry ∈ Schema.registrationsOf (context.queryLiftings (context.documentedFields fields)) ∨
        (context.fieldsPlaced .body fields).isEmpty = false ∧
          entry = (action,
            (Fragment.object (context.fieldsPlaced .body fields) notes).lifted action) := by
  have listed : context.otherLiftings =
      context.queryLiftings (context.fieldsPlaced .query fields) ++
        context.bodyLiftings (context.fieldsPlaced .body fields) notes := by
    simp only [otherLiftings, given, ruled, standard]
  rw [listed, Schema.registrationsOf_append, context.registrationsOf_bodyLiftings named,
    mem_registrationsOf_fieldsPlaced, List.mem_append, List.mem_append, or_assoc]
  cases (context.fieldsPlaced .body fields).isEmpty <;> simp

/-- One of two methods has all fields of the body of the other, in the same order. -/
theorem fieldsPlaced_body_sublist (fields : Entries Rule) (method : Method) :
    ((context.forMethod method).fieldsPlaced .body fields).Sublist
        (context.fieldsPlaced .body fields) ∨
      (context.fieldsPlaced .body fields).Sublist
        ((context.forMethod method).fieldsPlaced .body fields) := by
  have monotone : ∀ first second : OperationContext, first.docs = second.docs →
      first.documentedFields fields = second.documentedFields fields →
      (first.sendsBody = true → second.sendsBody = true) →
      (first.fieldsPlaced .body fields).Sublist (second.fieldsPlaced .body fields) := by
    intro first second sameDocs sameFields sends
    unfold fieldsPlaced
    rw [sameFields]
    apply List.monotone_filter_right
    intro field placed
    unfold placement at placed ⊢
    rw [sameDocs] at placed
    generalize second.docs.parameterLocations.get? field.1 = documented at placed ⊢
    cases documented with
    | some place => exact placed
    | none =>
      cases sent : first.sendsBody with
      | true =>
        rw [sends sent]
        rfl
      | false =>
        rw [sent] at placed
        exact absurd placed (by decide)
  cases sent : context.sendsBody with
  | true => exact Or.inl (monotone _ _ rfl rfl fun _ => sent)
  | false => exact Or.inr (monotone _ _ rfl rfl fun impossible => by simp [sent] at impossible)

/-! ## Two methods -/

theorem otherLiftings_of_root {rule : Rule} (given : context.route.params = some (.root rule))
    (ruled : (Params.root rule).fieldRules? = none) (standard : context.route.kind = .standard) :
    context.otherLiftings = context.valueLiftings rule := by
  simp only [otherLiftings, given, ruled, standard]

theorem valueLiftings_forMethod (rule : Rule) (method : Method) :
    context.valueLiftings rule = [] ∨ (context.forMethod method).valueLiftings rule = [] ∨
      (context.forMethod method).valueLiftings rule = context.valueLiftings rule := by
  unfold valueLiftings
  cases context.sendsBody with
  | false => exact Or.inl rfl
  | true =>
    cases (context.forMethod method).sendsBody with
    | false => exact Or.inr (Or.inl rfl)
    | true => exact Or.inr (Or.inr rfl)

variable {method : Method} {name action : String} {first second : SchemaObject}

/-- The body objects of two methods are identical when they compare as the
same: one has the fields of the other, and comparison counts the fields. -/
theorem fieldRegistrations_agree {params : Params} {fields : Entries Rule} {notes : Notes}
    (given : context.route.params = some params) (ruled : params.fieldRules? = some (fields, notes))
    (standard : context.route.kind = .standard) (named : context.route.action = some action)
    (here : (name, first) ∈ Schema.registrationsOf context.otherLiftings)
    (there : (name, second) ∈ Schema.registrationsOf (context.forMethod method).otherLiftings)
    (same : first.same second = true) :
    first = second ∨
      (name, first) ∈ Schema.registrationsOf (context.forMethod method).otherLiftings ∨
      (name, second) ∈ Schema.registrationsOf context.otherLiftings := by
  have own := context.mem_registrationsOf_otherLiftings given ruled standard named
  have other := (context.forMethod method).mem_registrationsOf_otherLiftings given ruled standard
    named
  rcases (own _).mp here with ofField | ⟨_, ofBody⟩
  · exact Or.inr (Or.inl ((other _).mpr (Or.inl ofField)))
  rcases (other _).mp there with ofField | ⟨_, ofOtherBody⟩
  · exact Or.inr (Or.inr ((own _).mpr (Or.inl ofField)))
  left
  cases ofBody
  cases ofOtherBody
  have lengths := SchemaObject.length_properties_of_same same
  simp only [SchemaObject.lifted, Fragment.object, Fragment.schemas, Entries.mapValues,
    List.length_map] at lengths
  have equal : context.fieldsPlaced .body fields =
      (context.forMethod method).fieldsPlaced .body fields := by
    rcases context.fieldsPlaced_body_sublist fields method with fewer | more
    · exact (fewer.eq_of_length lengths.symm).symm
    · exact more.eq_of_length lengths
  rw [equal]

theorem otherRegistrations_agree (named : context.route.action = some action)
    (here : (name, first) ∈ Schema.registrationsOf context.otherLiftings)
    (there : (name, second) ∈ Schema.registrationsOf (context.forMethod method).otherLiftings)
    (same : first.same second = true) :
    first = second ∨
      (name, first) ∈ Schema.registrationsOf (context.forMethod method).otherLiftings ∨
      (name, second) ∈ Schema.registrationsOf context.otherLiftings := by
  by_cases standard : context.route.kind = .standard
  case neg =>
    rw [context.otherLiftings_forMethod standard]
    exact Or.inr (Or.inl here)
  cases given : context.route.params with
  | none =>
    simp only [otherLiftings, given] at here
    cases here
  | some params =>
    cases ruled : params.fieldRules? with
    | some rules => exact context.fieldRegistrations_agree given ruled standard named here there same
    | none =>
      cases params with
      | fields own notes =>
        simp only [otherLiftings, given, ruled, standard] at here
        cases here
      | root rule =>
        rw [context.otherLiftings_of_root given ruled standard] at here ⊢
        rw [(context.forMethod method).otherLiftings_of_root given ruled standard] at there ⊢
        rcases context.valueLiftings_forMethod rule method with none | none | equal
        · rw [none] at here
          cases here
        · rw [none] at there
          cases there
        · exact Or.inr (Or.inl (equal ▸ here))

/-- Where two methods of a route register objects under one name that compare
as the same, the objects are identical, or one of the methods registers both. -/
theorem registrations_agree (documented : context.route.isDocumented = true)
    (here : (name, first) ∈ context.registrations)
    (there : (name, second) ∈ (context.forMethod method).registrations)
    (same : first.same second = true) :
    first = second ∨ (name, first) ∈ (context.forMethod method).registrations ∨
      (name, second) ∈ context.registrations := by
  rcases context.mem_registrations_iff.mp here with ofPath | ⟨acts, ofOther⟩
  · exact Or.inr (Or.inl ((context.forMethod method).mem_registrations_iff.mpr (Or.inl ofPath)))
  rcases (context.forMethod method).mem_registrations_iff.mp there with
    ofPath | ⟨actsThere, ofOtherThere⟩
  · exact Or.inr (Or.inr (context.mem_registrations_iff.mpr (Or.inl ofPath)))
  obtain ⟨action, named⟩ : ∃ action, context.route.action = some action := by
    cases given : context.route.action with
    | some action => exact ⟨action, rfl⟩
    | none => simp_all [Route.isDocumented]
  rcases context.otherRegistrations_agree named ofOther ofOtherThere same with equal | both | both
  · exact Or.inl equal
  · have registered := (context.forMethod method).mem_registrations_iff.mpr
      (Or.inr ⟨actsThere, both⟩)
    exact Or.inr (Or.inl registered)
  · exact Or.inr (Or.inr (context.mem_registrations_iff.mpr (Or.inr ⟨acts, both⟩)))

end OperationContext
end RouteDocs
