import RouteDocs.Proofs.Document.Unfiltered

namespace RouteDocs

/-!
# A component that comes back in another order

The comparison of objects does not see the order of properties.  When two
methods of a route store the same properties under one name in different
orders, the filter takes the second object for the first, and the order of the
first method stays in the document.

A route comes to this when a field `x` with an inner field `y` stands beside a
field `x.y`, because both lift to the same name.  Here `x` is sent in the body
by every method, and `x.y` only where a method sends a body.  So one method
stores `x.y` first and the inner field over it, the other one the other way round.
-/

/-- A route that has contributed nothing hands over everything. -/
theorem Contribution.unrepeated_nil (built : Store) : Contribution.unrepeated [] built = built := by
  have all : built.components.filter (Contribution.passes []) = built.components :=
    List.filter_eq_self.mpr fun _ _ => rfl
  change { built with components := built.components.filter (Contribution.passes []) } = built
  rw [all]

/-- When the second method of a route stores an object that is taken for that
of the first, the first one stays; without the filter the second one does. -/
theorem Claim.first_stays {first second : Claim} {begun : Assembly} {operation other : Operation}
    {stored restored : Store} (opening : first.opening = true) (continues : second.opening = false)
    (none : begun.documented = [])
    (elsewhere : ¬(first.context.fullPath = second.context.fullPath ∧
      first.context.method = second.context.method))
    (built : first.context.build = .ok (operation, stored))
    (rebuilt : second.context.build = .ok (other, restored)) {name : String}
    {known object : SchemaObject} (found : stored.components.get? name = some known)
    (refound : restored.components.get? name = some object) (same : known.same object = true) :
    (run [first, second] (.start begun)).1.assembly.store.get? name = some known ∧
      (runWith Unfiltered.advance [first, second] (.start begun)).1.assembly.store.get? name =
        some object := by
  have free : ∀ path method, begun.find? path method = .none := by
    intro path method
    simp only [Assembly.find?, none, List.find?_nil, Option.map_none]
  have stillFree : ((begun.absorb stored).accept first.context operation).find?
      second.context.fullPath second.context.method = .none := by
    rw [Assembly.find?_accept_elsewhere _ _ _ elsewhere]
    exact free _ _
  have distinct := OperationContext.nodup_names_build built
  have redistinct := OperationContext.nodup_names_build rebuilt
  constructor
  · let between : Progress :=
      { contribution := Entries.overlay [] stored.components
        assembly := (begun.absorb stored).accept first.context operation }
    have advanced : first.advance (.start begun) = .ok between := by
      rw [advance_of_free (free _ _) built, contributed, if_pos opening,
        Contribution.unrepeated_nil]
      rfl
    have contributed : second.contributed between = Entries.overlay [] stored.components := by
      rw [Claim.contributed, continues]
      rfl
    have remembered : Contribution.passes (Entries.overlay [] stored.components) (name, object) =
        false := by
      have contribution := Entries.get?_overlay [] distinct name
      rw [found, Option.some_or] at contribution
      simp only [Contribution.passes, Contribution.repeats, contribution, same, Bool.not_true]
    have passedOver := Entries.get?_filter_eq_none redistinct refound remembered
    rw [run_cons_of_advance advanced, run_cons_of_advance (advance_of_free stillFree rebuilt),
      contributed]
    change ((begun.absorb stored).absorb _).store.components.get? name = some known
    rw [Assembly.components_absorb, Contribution.components_unrepeated,
      Entries.get?_overlay _ (Entries.nodup_names_filter redistinct _), passedOver,
      Option.none_or, Assembly.components_absorb, Entries.get?_overlay _ distinct, found,
      Option.some_or]
  · simp only [runWith, Unfiltered.advance, Unfiltered.start, free, built, stillFree, rebuilt]
    change ((begun.absorb stored).absorb restored).store.components.get? name = some object
    rw [Assembly.components_absorb, Entries.get?_overlay _ redistinct, refound, Option.some_or]

def Rule.switch : Rule := { kind := .boolean, optional := true }

def Fragment.switch : Fragment where
  schema := .typed .boolean
  optional := true

/-- An object of optional truth values. -/
def Rule.switches (names : List String) : Rule :=
  .object (names.map fun name => (name, .switch))

def SchemaObject.switches (names : List String) : SchemaObject where
  type := some .object
  properties := names.map fun name => (name, .typed .boolean)

def Fragment.switches (names : List String) : Fragment where
  schema := .inline (.switches names)
  optional := false

/-- The order of properties does not count for the comparison of objects. -/
theorem SchemaObject.same_switches {names others : List String} (same : names.Perm others) :
    (SchemaObject.switches names).same (.switches others) = true := by
  have properties : ∀ few : List String, few ⊆ others →
      Schema.sameProperties (few.map fun name => (name, .typed .boolean))
        (others.map fun name => (name, .typed .boolean)) = true := by
    intro few inside
    induction few with
    | nil => simp only [List.map_nil, Schema.sameProperties]
    | cons name rest inductionHypothesis =>
      obtain ⟨member, insideRest⟩ := List.cons_subset.mp inside
      simp only [List.map_cons, Schema.sameProperties, Entries.get?_map_of_mem member,
        Schema.same_typed, inductionHypothesis insideRest, Bool.and_self]
  rw [same_iff]
  refine ⟨Facets.same_of_type _, ?_, ?_, properties names same.subset, ?_, ?_, ?_, ?_⟩
  · simp only [switches, Schema.sameItems]
  · simp only [switches, List.length_map, same.length_eq]
  · simp only [switches, Schema.sameAdditional]
  · simp only [switches, Schema.sameMembers]
  · simp only [switches, Schema.sameMembers]
  · simp only [switches, Schema.sameMembers]

namespace MapperTable

theorem convert_switch (scope : Scope) : builtin.convert .switch {} scope = .ok (some .switch) := by
  simp only [convert, Rule.switch, RuleKind.tag, mapperFor, builtin, builtinMapper,
    Option.map_some, settle, convertKind, Mapper.plainSchema, Except.map]
  rfl

theorem convert_object {fields : Entries Rule} {converted : Entries Fragment}
    (inside : builtin.convertFields fields = .ok converted) (scope : Scope) :
    builtin.convert (.object fields) {} scope =
      .ok (some
        { schema := .inline (({} : ObjectLimits).schema converted)
          optional := false }) := by
  have entries : builtin.convertEntries fields (.ofFields fields) = .ok converted := inside
  have mapper : builtin.mapperFor .object = .ok (.own .object) := rfl
  simp only [convert, Rule.object, RuleKind.tag, mapper, convertKind, entries, Except.map]
  rfl

theorem convert_switches (names : List String) (scope : Scope) :
    builtin.convert (.switches names) {} scope = .ok (some (.switches names)) := by
  have inside : ∀ (names : List String) (scope : Scope),
      builtin.convertEntries (names.map fun name => (name, .switch)) scope =
        .ok (names.map fun name => (name, .switch)) := by
    intro names scope
    induction names with
    | nil => simp only [List.map_nil, convertEntries]
    | cons name rest inductionHypothesis =>
      exact convertEntries_cons (convert_switch scope) inductionHypothesis
  have shown : ({} : ObjectLimits).schema (names.map fun name => (name, .switch)) =
      .switches names := by
    simp [ObjectLimits.schema, SchemaObject.switches, Fragment.schemas, Fragment.requiredNames,
      Entries.mapValues, Fragment.switch, List.filter_map, Function.comp_def]
  rw [Rule.switches, convert_object (inside names _), shown]
  rfl

end MapperTable

theorem Schema.registrations_switches {names : List String} (present : names ≠ [])
    (name : String) :
    (Schema.inline (.switches names)).registrations name = [(name, .switches names)] := by
  have named : (SchemaObject.switches names).isNamedObject = true := by
    cases names with
    | nil => exact absurd rfl present
    | cons first rest => rfl
  have inside : (SchemaObject.switches names).registrations name = [] := by
    rw [SchemaObject.registrations_of_properties rfl]
    simp [SchemaObject.switches, Schema.registrationsOf, Schema.registrations_typed]
  have lifted : (SchemaObject.switches names).lifted name = .switches names := by
    simp [SchemaObject.lifted, SchemaObject.switches, Schema.lifted_typed, Schema.liftedMembers,
      Schema.numbered]
  rw [registrations_inline, if_pos named, inside, lifted, List.nil_append]

/-- An object whose field `y` has the given truth values. -/
def SchemaObject.holder (names : List String) : SchemaObject where
  type := some .object
  properties := [("y", .inline (.switches names))]
  required := ["y"]

def Fragment.holder (names : List String) : Fragment where
  schema := .inline (.holder names)
  optional := false

theorem MapperTable.convert_holder (names : List String) (scope : Scope) :
    builtin.convert (.object [("y", .switches names)]) {} scope =
      .ok (some (.holder names)) := by
  have inside : builtin.convertFields [("y", .switches names)] = .ok [("y", .switches names)] :=
    convertEntries_cons (convert_switches names _) (by simp only [convertEntries])
  rw [convert_object inside]
  rfl

theorem Schema.registrations_holder {names : List String} (present : names ≠ []) (name : String) :
    (Schema.inline (.holder names)).registrations name =
      [(componentName name "y", .switches names),
       (name, (SchemaObject.holder names).lifted name)] := by
  have named : (SchemaObject.holder names).isNamedObject = true := rfl
  have inside : (SchemaObject.holder names).registrations name =
      [(componentName name "y", .switches names)] := by
    rw [SchemaObject.registrations_of_properties rfl]
    change registrationsOf [(componentName name "y", .inline (.switches names))] = _
    rw [registrationsOf_cons, registrationsOf_nil, List.append_nil, registrations_switches present]
  rw [registrations_inline, if_pos named, inside]
  rfl

/-! ## The route -/

/-- The route with a field `x` around a field `y` and a field `x.y`. -/
def Route.crossing (names others : List String) : Route where
  methods := [.get, .post]
  path := "/r"
  action := some "a"
  params := some
    (.fields [("x", .object [("y", .switches names)]), ("x.y", .switches others)] {})
  actionDocs := { parameterLocations := [("x", .body)] }

def OperationContext.crossing (names others : List String) (method : Method) : OperationContext :=
  (Generator.unused {} []).workshop.context (.crossing names others) method

namespace OperationContext

variable (names others : List String)

theorem fieldsOutsidePath_crossing (method : Method) :
    (crossing names others method).fieldsOutsidePath
        [("x", .object [("y", .switches names)]), ("x.y", .switches others)] =
      .ok [("x", .holder names), ("x.y", .switches others)] := by
  have converted : MapperTable.builtin.convertFields
      [("x", .object [("y", .switches names)]), ("x.y", .switches others)] =
        .ok [("x", .holder names), ("x.y", .switches others)] :=
    MapperTable.convertEntries_cons (MapperTable.convert_holder names _)
      (MapperTable.convertEntries_cons (MapperTable.convert_switches others _)
        (by simp only [MapperTable.convertEntries]))
  have noPlaceholders : (crossing names others method).placeholders = [] := by
    change Path.placeholders (Path.normalize "/r") = []
    decide
  exact fieldsOutsidePath_of_plain noPlaceholders converted

variable {names others}

/-- What fields in the body register: theirs in order, and the object of the action. -/
theorem registrations_body {fields : Entries Fragment} (present : fields.isEmpty = false)
    (method : Method) :
    Schema.registrationsOf ((crossing names others method).bodyLiftings fields {}) =
      Schema.registrationsOf (fields.map fun field =>
        (componentName "a" field.1, field.2.schema)) ++
        [("a", (Fragment.object fields {}).lifted "a")] := by
  rw [bodyLiftings_of_action _ present {} rfl, Schema.registrationsOf_cons,
    Schema.registrationsOf_nil, List.append_nil, Schema.registrations_inline,
    if_pos (Fragment.isNamedObject_object {} present), SchemaObject.registrations,
    Fragment.placedParts_object]

/-- One method stores `x.y` first, and then the inner field of `x`. -/
theorem build_crossing_get (present : names ≠ []) (presentOthers : others ≠ []) :
    ∃ operation stored, (crossing names others .get).build = .ok (operation, stored) ∧
      stored.components.get? "a.x.y" = some (.switches names) := by
  have built : (crossing names others .get).build = _ :=
    build_fields rfl rfl rfl rfl rfl (fieldsOutsidePath_crossing names others .get)
      [("x.y", .switches others)] [("x", .holder names)] rfl rfl
  have nameX : componentName "a" "x" = "a.x" := by decide
  have nameY : componentName "a.x" "y" = "a.x.y" := by decide
  have query : (crossing names others .get).queryLiftings [("x.y", .switches others)] =
      [("a.x.y", .inline (.switches others))] := rfl
  have body := @registrations_body names others [("x", .holder names)] rfl .get
  simp only [List.map_cons, List.map_nil, Fragment.holder, Schema.registrationsOf_cons,
    Schema.registrationsOf_nil, Schema.registrations_holder present, nameX, nameY] at body
  refine ⟨_, _, built, ?_⟩
  simp only [Schema.registrationsOf_append, query, Schema.registrationsOf_cons,
    Schema.registrationsOf_nil, Schema.registrations_switches presentOthers, Fragment.holder, body]
  simp [Store.record, Store.insert, Entries.get?_put]

/-- The other method stores the inner field of `x` first, and then `x.y`. -/
theorem build_crossing_post (present : names ≠ []) (presentOthers : others ≠ []) :
    ∃ operation stored, (crossing names others .post).build = .ok (operation, stored) ∧
      stored.components.get? "a.x.y" = some (.switches others) := by
  have built : (crossing names others .post).build = _ :=
    build_fields rfl rfl rfl rfl rfl (fieldsOutsidePath_crossing names others .post)
      [] [("x", .holder names), ("x.y", .switches others)] rfl rfl
  have nameX : componentName "a" "x" = "a.x" := by decide
  have nameY : componentName "a.x" "y" = "a.x.y" := by decide
  have nameXY : componentName "a" "x.y" = "a.x.y" := by decide
  have query : (crossing names others .post).queryLiftings [] = [] := rfl
  have body := @registrations_body names others
    [("x", .holder names), ("x.y", .switches others)] rfl .post
  simp only [List.map_cons, List.map_nil, Fragment.holder, Fragment.switches,
    Schema.registrationsOf_cons, Schema.registrationsOf_nil, Schema.registrations_holder present,
    Schema.registrations_switches presentOthers, nameX, nameY, nameXY] at body
  refine ⟨_, _, built, ?_⟩
  simp only [Schema.registrationsOf_append, query, Schema.registrationsOf_nil, Fragment.holder,
    Fragment.switches, body]
  simp [Store.record, Store.insert, Entries.get?_put]

end OperationContext

namespace Generator

theorem claimsMade_crossing (names others : List String) :
    (unused {} []).claimsMade "3.0" [.crossing names others] =
      [{ context := .crossing names others .get, opening := true },
       { context := .crossing names others .post, opening := false }] := by
  have supported : Version.ofText? "3.0" = some .v30 := by decide
  have started : (unused {} []).beginning = .ok {} := rfl
  have single : Route.inPathOrder [.crossing names others] = [.crossing names others] :=
    List.mergeSort_singleton _
  simp only [claimsMade, supported, started, claims, single]
  rfl

/-- The order of the first method stays in the store; without the filter it
would be that of the second. -/
theorem first_order_stays {names others : List String} (present : names ≠ [])
    (same : names.Perm others) :
    ((unused {} []).generate "3.0" [.crossing names others]).2.store.get? "a.x.y" =
        some (.switches names) ∧
      ((unused {} []).unfiltered "3.0" [.crossing names others]).assembly.store.get? "a.x.y" =
        some (.switches others) := by
  have presentOthers : others ≠ [] := fun none => present (none ▸ same).eq_nil
  obtain ⟨_, _, built, found⟩ := OperationContext.build_crossing_get present presentOthers
  obtain ⟨_, _, rebuilt, refound⟩ := OperationContext.build_crossing_post present presentOthers
  have begun : (unused {} []).beforeClaims "3.0" = {} := by
    have supported : Version.ofText? "3.0" = some .v30 := by decide
    have started : (unused {} []).beginning = .ok {} := rfl
    simp only [beforeClaims, supported, started]
  rw [generate_snd_eq_run, unfiltered, claimsMade_crossing, begun]
  refine Claim.first_stays rfl rfl rfl ?_ built rebuilt found refound
    (SchemaObject.same_switches same)
  rintro ⟨-, method⟩
  cases method

/-- With and without the filter the stores differ in the order of properties. -/
theorem filter_keeps_order :
    ((unused {} []).generate "3.0" [.crossing ["p", "q"] ["q", "p"]]).2.store.components ≠
      ((unused {} []).unfiltered "3.0"
        [.crossing ["p", "q"] ["q", "p"]]).assembly.store.components := by
  obtain ⟨kept, last⟩ := first_order_stays (List.cons_ne_nil "p" ["q"]) (List.Perm.swap "q" "p" [])
  intro same
  rw [Store.get?, same] at kept
  rw [Store.get?, kept] at last
  have names := congrArg (fun object => Entries.names (SchemaObject.properties object))
    (Option.some.inj last)
  exact absurd names (by decide)

end Generator
end RouteDocs
