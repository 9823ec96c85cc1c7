import RouteDocs.Proofs.Input.Orderly
import RouteDocs.Proofs.Rule.Comparable
import RouteDocs.Route.Read

namespace RouteDocs

/-!
# Comparable routes

The rules of a route are comparable when none of them names an undefined number
or one field twice.  Input cannot name either: every route that is read from it
is comparable.
-/

/-- The parameters name no field twice, and their rules are comparable. -/
def Params.Comparable (params : Params) : Prop :=
  match params with
  | .fields named _ => named.names.Nodup ∧ ∀ field ∈ named, field.2.Comparable
  | .root rule => rule.Comparable

/-- Comparable parameters declare no field twice. -/
theorem Params.Comparable.names {params : Params} (comparable : params.Comparable)
    {fields : Entries Rule} {notes : Notes}
    (ruled : params.fieldRules? = some (fields, notes)) : fields.names.Nodup := by
  cases params with
  | fields named own =>
    cases ruled
    exact comparable.1
  | root rule =>
    simp only [fieldRules?] at ruled
    split at ruled
    · next named limits kind =>
      cases ruled
      have distinct := (Rule.Throughout.own comparable).kind.names
      rw [kind] at distinct
      exact distinct
    · cases ruled

/-- The documented path parameters have comparable rules. -/
def OperationDocs.Comparable (docs : OperationDocs) : Prop :=
  ∀ declared ∈ docs.pathParameters.getD [], ∀ rule ∈ declared.rule, rule.Comparable

/-- All rules of a route are comparable. -/
structure Route.Comparable (route : Route) : Prop where
  params : ∀ params ∈ route.params, params.Comparable
  pathParameters : route.mergedDocs.Comparable

/-! ## Parameters -/

/-- The object that is left when a key is taken out is as orderly as before. -/
theorem Json.everywhere_swapErase {entries : Entries Json}
    (orderly : (Json.object entries).Everywhere Json.IsOrderly) (name : String) :
    (Json.object (entries.swapErase name)).Everywhere Json.IsOrderly := by
  refine .intro (Entries.nodup_names_swapErase orderly.own name).1 fun part member => ?_
  rcases List.mem_map.mp member with ⟨entry, kept, rfl⟩
  exact orderly.entries entry (Entries.mem_of_mem_swapErase kept)

theorem Params.comparable_of_read {value : Json} (orderly : value.Everywhere Json.IsOrderly)
    {params : Params} (read : Params.read value = .ok params) : params.Comparable := by
  cases value with
  | object entries =>
    simp only [Params.read] at read
    split at read
    · rcases Except.eq_ok_of_map_eq_ok read with ⟨rule, found, rfl⟩
      exact Rule.comparable_of_read (Json.everywhere_swapErase orderly rootKey) found
    · rcases Except.eq_ok_of_bind_eq_ok read with ⟨named, found, afterFields⟩
      rcases Except.eq_ok_of_map_eq_ok afterFields with ⟨notes, -, rfl⟩
      rcases Rule.read_of_mem_readFields found with ⟨names, each⟩
      refine ⟨?_, fun field member => ?_⟩
      · rw [names]
        exact Entries.nodup_names_filter orderly.own _
      · rcases each field member with ⟨entry, listed, same⟩
        exact Rule.comparable_of_read (orderly.entries entry (List.mem_filter.mp listed).1) same
  | _ => cases read

/-! ## Records -/

theorem Rule.readNode_yields : Node.Yields Rule.readNode Rule.Comparable := by
  intro node rule orderly succeeded
  rcases Except.eq_ok_of_bind_eq_ok succeeded with ⟨value, given, carried⟩
  have read := Except.eq_ok_of_mapError_eq_ok (Except.eq_ok_of_mapError_eq_ok carried)
  exact Rule.comparable_of_read (Node.asValue_yields node value orderly given) read

theorem Params.readNode_yields : Node.Yields Params.readNode Params.Comparable := by
  intro node params orderly succeeded
  rcases Except.eq_ok_of_bind_eq_ok succeeded with ⟨value, given, carried⟩
  have read := Except.eq_ok_of_mapError_eq_ok (Except.eq_ok_of_mapError_eq_ok carried)
  exact Params.comparable_of_read (Node.asValue_yields node value orderly given) read

theorem PathParameter.read_yields :
    Node.Yields PathParameter.read fun parameter => ∀ rule ∈ parameter.rule, rule.Comparable := by
  apply RecordField.readRecord_yields
  · simp only [fields, List.forall_mem_cons]
    refine ⟨?_, .beside "description" _ fun _ _ kept => kept,
      .of (Rule.readNode_yields.asOptional) "rule" fun _ _ own _ => own, List.forall_mem_nil _⟩
    exact RecordField.Keeps.beside "name" _ fun _ _ kept => kept
  · intro rule impossible
    cases impossible

theorem OperationDocs.read_yields : Node.Yields OperationDocs.read OperationDocs.Comparable := by
  have keeps : ∀ field ∈ fields, field.Keeps OperationDocs.Comparable := by
    simp only [fields, List.forall_mem_cons]
    refine ⟨.beside "summary" _ fun _ _ kept => kept, .beside "description" _ fun _ _ kept => kept,
      .beside "operationId" _ fun _ _ kept => kept, .beside "deprecated" _ fun _ _ kept => kept,
      .beside "tags" _ fun _ _ kept => kept, .beside "tagDefinitions" _ fun _ _ kept => kept,
      ?_, .beside "parameterLocations" _ fun _ _ kept => kept,
      .beside "responses" _ fun _ _ kept => kept, .beside "security" _ fun _ _ kept => kept,
      List.forall_mem_nil _⟩
    refine .of PathParameter.read_yields.asList.asOptional "pathParameters" fun value? _ own _ => ?_
    cases value? with
    | none => exact List.forall_mem_nil _
    | some values => exact own values rfl
  have start : OperationDocs.Comparable {} := List.forall_mem_nil _
  intro node docs orderly succeeded
  unfold OperationDocs.read at succeeded
  split at succeeded
  · rcases Except.eq_ok_of_bind_eq_ok succeeded with ⟨read, found, afterFields⟩
    rcases Except.eq_ok_of_bind_eq_ok afterFields with ⟨extra, -, same⟩
    cases same
    cases orderly with
    | map each =>
      have kept : read.Comparable := RecordField.readMap_keeps keeps each start found
      exact kept
  · split at succeeded
    · cases succeeded
      exact start
    · cases succeeded

theorem ServiceInfo.read_yields :
    Node.Yields ServiceInfo.read fun service => service.docs.Comparable := by
  apply RecordField.readRecord_yields
  · simp only [fields, List.forall_mem_cons]
    exact ⟨.beside "name" _ fun _ _ kept => kept,
      .of OperationDocs.read_yields "docs" fun _ _ own _ => own, List.forall_mem_nil _⟩
  · exact List.forall_mem_nil _

theorem OperationDocs.Comparable.merge {weaker stronger : OperationDocs}
    (below : weaker.Comparable) (above : stronger.Comparable) :
    (weaker.merge stronger).Comparable := by
  intro declared member
  change declared ∈ (stronger.pathParameters.or weaker.pathParameters).getD [] at member
  cases set : stronger.pathParameters with
  | none =>
    rw [set, Option.none_or] at member
    exact below declared member
  | some parameters =>
    rw [set, Option.some_or] at member
    exact above declared (by rw [set]; exact member)

/-- The parameters are comparable, and so is the documentation of each level. -/
def Route.LevelsComparable (route : Route) : Prop :=
  (∀ params ∈ route.params, params.Comparable) ∧ route.serviceDocs.Comparable ∧
    route.routeDocs.Comparable ∧ route.actionDocs.Comparable ∧ route.aliasDocs.Comparable

theorem Route.LevelsComparable.comparable {route : Route} (levels : route.LevelsComparable) :
    route.Comparable := by
  rcases levels with ⟨params, ofService, ofRoute, ofAction, ofAlias⟩
  exact ⟨params, ((ofService.merge ofRoute).merge ofAction).merge ofAlias⟩

/-- Every route that is read from orderly input is comparable. -/
theorem Route.comparable_of_read : Node.Yields Route.read Route.Comparable := by
  have levels : Node.Yields Route.read Route.LevelsComparable := by
    apply RecordField.readRecord_yields
    · simp only [fields, List.forall_mem_cons]
      refine ⟨.beside "methods" _ fun _ _ kept => kept, .beside "path" _ fun _ _ kept => kept,
        .beside "action" _ fun _ _ kept => kept, ?params, .beside "kind" _ fun _ _ kept => kept,
        .beside "joker" _ fun _ _ kept => kept, .beside "autoAlias" _ fun _ _ kept => kept,
        .beside "server" _ fun _ _ kept => kept, .beside "bodyParsers" _ fun _ _ kept => kept,
        ?service, ?routeDocs, ?actionDocs, ?aliasDocs, List.forall_mem_nil _⟩
      case params =>
        exact .of Params.readNode_yields.asOptional "params" fun _ _ own kept => ⟨own, kept.2⟩
      case service =>
        refine .of ServiceInfo.read_yields.asOptional "service" fun service? _ own kept => ?_
        rcases kept with ⟨params, -, others⟩
        cases service? with
        | none => exact ⟨params, List.forall_mem_nil _, others⟩
        | some service => exact ⟨params, own service rfl, others⟩
      case routeDocs =>
        exact .of OperationDocs.read_yields "routeDocs" fun _ _ own kept =>
          ⟨kept.1, kept.2.1, own, kept.2.2.2⟩
      case actionDocs =>
        exact .of OperationDocs.read_yields "actionDocs" fun _ _ own kept =>
          ⟨kept.1, kept.2.1, kept.2.2.1, own, kept.2.2.2.2⟩
      case aliasDocs =>
        exact .of OperationDocs.read_yields "aliasDocs" fun _ _ own kept =>
          ⟨kept.1, kept.2.1, kept.2.2.1, kept.2.2.2.1, own⟩
    · refine ⟨fun params given => ?_, List.forall_mem_nil _, List.forall_mem_nil _,
        List.forall_mem_nil _, List.forall_mem_nil _⟩
      cases given
  exact fun node route orderly read => (levels node route orderly read).comparable

/-- So is every route that is read from a JSON value without undefined numbers. -/
theorem Route.comparable_of_readJson {value : Json} (orderly : value.Everywhere Json.IsOrderly)
    {route : Route} (read : Route.read (Node.ofJson value) = .ok route) : route.Comparable :=
  Route.comparable_of_read _ route (Node.orderly_ofJson orderly) read

end RouteDocs
