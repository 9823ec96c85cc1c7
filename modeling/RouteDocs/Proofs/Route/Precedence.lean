import RouteDocs.Proofs.Input.Orderly
import RouteDocs.Route.Read

namespace RouteDocs

/-!
# Precedence of documentation

What can be set at a level of the documentation is a `Setting`.  A merge reads
every setting from the stronger side, where that sets it, and from the weaker
side otherwise (`Setting.get?_merge`); from this law alone the precedence of
any number of levels follows.  The settings say nothing about the order in which
fields and extra keys stand: that merging is a monoid on documentation with
distinct keys, in which the tables are compared as they stand, and that names
keep the places of their first arrival, is stated beside it.
-/

namespace OperationDocs

/-- No field has two locations, and no extra key two values. -/
structure DistinctKeys (docs : OperationDocs) : Prop where
  locations : docs.parameterLocations.names.Nodup
  extra : docs.extra.names.Nodup

theorem distinctKeys_default : DistinctKeys {} :=
  ⟨List.nodup_nil, List.nodup_nil⟩

theorem DistinctKeys.merge {weaker : OperationDocs} (distinct : weaker.DistinctKeys)
    (stronger : OperationDocs) : (weaker.merge stronger).DistinctKeys :=
  ⟨Entries.nodup_names_overlay distinct.locations _, Entries.nodup_names_overlay distinct.extra _⟩

/-! ## A monoid -/

theorem default_merge {docs : OperationDocs} (distinct : docs.DistinctKeys) :
    merge {} docs = docs := by
  simp only [merge, Option.or_none, List.nil_append, Entries.nil_overlay distinct.locations,
    Entries.nil_overlay distinct.extra]

theorem merge_default (docs : OperationDocs) : docs.merge {} = docs := by
  simp only [merge, Option.none_or, List.append_nil, Entries.overlay_nil]

/-- Three levels can be put together from either end. -/
theorem merge_assoc (first : OperationDocs) {second : OperationDocs}
    (distinct : second.DistinctKeys) (third : OperationDocs) :
    (first.merge second).merge third = first.merge (second.merge third) := by
  simp only [merge, Option.or_assoc, List.append_assoc,
    Entries.overlay_assoc _ distinct.locations, Entries.overlay_assoc _ distinct.extra]

/-! ## What a level sets -/

/-- What a level of the documentation may set: one of the fields, the location of
a field of the parameters, or an extra key. -/
inductive Setting : Type → Type where
  | summary : Setting String
  | description : Setting String
  | operationId : Setting String
  | deprecated : Setting Bool
  | tags : Setting (List String)
  | pathParameters : Setting (List PathParameter)
  | responses : Setting Json
  | security : Setting Json
  | location (field : String) : Setting Placement
  | extraKey (key : String) : Setting Json

namespace Setting

variable {α : Type}

/-- What the documentation sets, if it sets it. -/
def get? (setting : Setting α) (docs : OperationDocs) : Option α :=
  match setting with
  | summary => docs.summary
  | description => docs.description
  | operationId => docs.operationId
  | deprecated => docs.deprecated
  | tags => docs.tags
  | pathParameters => docs.pathParameters
  | responses => docs.responses
  | security => docs.security
  | location field => docs.parameterLocations.get? field
  | extraKey key => docs.extra.get? key

theorem get?_default (setting : Setting α) : setting.get? {} = none := by
  cases setting <;> rfl

/-- The stronger side decides what it sets. -/
theorem get?_merge (setting : Setting α) (weaker : OperationDocs) {stronger : OperationDocs}
    (distinct : stronger.DistinctKeys) :
    setting.get? (weaker.merge stronger) = (setting.get? stronger).or (setting.get? weaker) := by
  cases setting with
  | location field => exact Entries.get?_overlay _ distinct.locations field
  | extraKey key => exact Entries.get?_overlay _ distinct.extra key
  | _ => rfl

/-- Of the levels above the start the strongest that sets something decides it. -/
theorem get?_foldl_merge (setting : Setting α) {levels : List OperationDocs}
    (distinct : ∀ docs ∈ levels, docs.DistinctKeys) (start : OperationDocs) :
    setting.get? (levels.foldl merge start) =
      (levels.reverse.findSome? setting.get?).or (setting.get? start) := by
  induction levels generalizing start with
  | nil => rfl
  | cons docs rest inductionHypothesis =>
    rcases List.forall_mem_cons.mp distinct with ⟨own, others⟩
    rw [List.foldl_cons, inductionHypothesis others, setting.get?_merge start own,
      List.reverse_cons, List.findSome?_append, List.findSome?_singleton, Option.or_assoc]

end Setting

/-! ## Any number of levels -/

theorem tagDefinitions_foldl_merge (levels : List OperationDocs) (start : OperationDocs) :
    (levels.foldl merge start).tagDefinitions =
      start.tagDefinitions ++ levels.flatMap tagDefinitions := by
  induction levels generalizing start with
  | nil => exact (List.append_nil _).symm
  | cons docs rest inductionHypothesis =>
    rw [List.foldl_cons, inductionHypothesis, List.flatMap_cons, ← List.append_assoc]
    rfl

/-- A table that a merge overlays holds all that the levels store, one level after the other. -/
theorem table_foldl_merge {α : Type} {table : OperationDocs → Entries α}
    (overlaid : ∀ weaker stronger, table (merge weaker stronger) =
      (table weaker).overlay (table stronger))
    (levels : List OperationDocs) (start : OperationDocs) :
    table (levels.foldl merge start) = (table start).overlay (levels.flatMap table) := by
  induction levels generalizing start with
  | nil => rfl
  | cons docs rest inductionHypothesis =>
    rw [List.foldl_cons, inductionHypothesis, overlaid, List.flatMap_cons, Entries.overlay_append]

/-- Its names stand in the order of their first arrival. -/
theorem names_foldl_merge {α : Type} {table : OperationDocs → Entries α}
    (overlaid : ∀ weaker stronger, table (merge weaker stronger) =
      (table weaker).overlay (table stronger))
    (levels : List OperationDocs) {start : OperationDocs} (distinct : (table start).names.Nodup) :
    (table (levels.foldl merge start)).names =
      ((table start).names ++ levels.flatMap fun docs => (table docs).names).eraseDups := by
  rw [table_foldl_merge overlaid, Entries.names_overlay_eq_eraseDups distinct]
  congr 2
  exact List.map_flatMap

/-! ## What is read -/

/-- Documentation that is read repeats no key: a repeated key takes the last value. -/
theorem read_yields_distinctKeys : Node.Yields OperationDocs.read DistinctKeys := by
  -- The extra keys are put in at the end, so the fields answer for the locations only.
  have keeps : ∀ field ∈ fields, field.Keeps fun docs => docs.parameterLocations.names.Nodup := by
    simp only [fields, List.forall_mem_cons]
    refine ⟨.beside "summary" _ fun _ _ kept => kept, .beside "description" _ fun _ _ kept => kept,
      .beside "operationId" _ fun _ _ kept => kept, .beside "deprecated" _ fun _ _ kept => kept,
      .beside "tags" _ fun _ _ kept => kept, .beside "tagDefinitions" _ fun _ _ kept => kept,
      .beside "pathParameters" _ fun _ _ kept => kept, ?_,
      .beside "responses" _ fun _ _ kept => kept, .beside "security" _ fun _ _ kept => kept,
      List.forall_mem_nil _⟩
    exact .of (Node.asEntries_yields _) "parameterLocations" fun _ _ own _ => own
  intro node docs orderly succeeded
  unfold OperationDocs.read at succeeded
  split at succeeded
  · rcases Except.eq_ok_of_bind_eq_ok succeeded with ⟨read, found, afterFields⟩
    rcases Except.eq_ok_of_bind_eq_ok afterFields with ⟨extra, -, same⟩
    cases same
    cases orderly with
    | map each =>
      have locations : read.parameterLocations.names.Nodup :=
        RecordField.readMap_keeps keeps each distinctKeys_default.locations found
      exact ⟨locations, Entries.nodup_names_ofPairs extra⟩
  · split at succeeded
    · cases succeeded
      exact distinctKeys_default
    · cases succeeded

end OperationDocs

namespace ServiceInfo

theorem read_yields_distinctKeys :
    Node.Yields ServiceInfo.read fun service => service.docs.DistinctKeys := by
  apply RecordField.readRecord_yields
  · simp only [fields, List.forall_mem_cons]
    exact ⟨.beside "name" _ fun _ _ kept => kept,
      .of OperationDocs.read_yields_distinctKeys "docs" fun _ _ own _ => own, List.forall_mem_nil _⟩
  · exact OperationDocs.distinctKeys_default

end ServiceInfo

namespace Route

open OperationDocs (merge DistinctKeys Setting)

/-- The documentation that counts for a route, the weakest first. -/
def levels (route : Route) : List OperationDocs :=
  [route.serviceDocs, route.routeDocs, route.actionDocs, route.aliasDocs]

/-- The levels of a route that is read repeat no key. -/
theorem read_yields_distinctKeys :
    Node.Yields Route.read fun route => ∀ docs ∈ route.levels, docs.DistinctKeys := by
  apply RecordField.readRecord_yields
  · simp only [fields, levels, List.forall_mem_cons]
    refine ⟨.beside "methods" _ fun _ _ kept => kept, .beside "path" _ fun _ _ kept => kept,
      .beside "action" _ fun _ _ kept => kept, .beside "params" _ fun _ _ kept => kept,
      .beside "kind" _ fun _ _ kept => kept, .beside "joker" _ fun _ _ kept => kept,
      .beside "autoAlias" _ fun _ _ kept => kept, .beside "server" _ fun _ _ kept => kept,
      .beside "bodyParsers" _ fun _ _ kept => kept, ?service, ?routeDocs, ?actionDocs, ?aliasDocs,
      List.forall_mem_nil _⟩
    case service =>
      refine .of ServiceInfo.read_yields_distinctKeys.asOptional "service"
        fun service? _ own kept => ?_
      cases service? with
      | none => exact ⟨OperationDocs.distinctKeys_default, kept.2⟩
      | some service => exact ⟨own service rfl, kept.2⟩
    case routeDocs =>
      exact .of OperationDocs.read_yields_distinctKeys "routeDocs" fun _ _ own kept =>
        ⟨kept.1, own, kept.2.2⟩
    case actionDocs =>
      exact .of OperationDocs.read_yields_distinctKeys "actionDocs" fun _ _ own kept =>
        ⟨kept.1, kept.2.1, own, kept.2.2.2⟩
    case aliasDocs =>
      exact .of OperationDocs.read_yields_distinctKeys "aliasDocs" fun _ _ own kept =>
        ⟨kept.1, kept.2.1, kept.2.2.1, own, kept.2.2.2.2⟩
  · simp only [levels, serviceDocs, List.forall_mem_cons, OperationDocs.distinctKeys_default,
      and_self, implies_true, List.not_mem_nil, false_implies]

theorem mergedDocs_eq_foldl {route : Route} (distinct : ∀ docs ∈ route.levels, docs.DistinctKeys) :
    route.mergedDocs = route.levels.foldl merge {} := by
  have ofService : route.serviceDocs.DistinctKeys := distinct _ List.mem_cons_self
  simp only [levels, mergedDocs, List.foldl_cons, List.foldl_nil,
    OperationDocs.default_merge ofService]

/-- Merging is a monoid on documentation with distinct keys, in which tables count
with their order.  The documentation of a route, merged, has of everything that
can be set what the strongest level sets, all tag definitions from the weakest
level on, and its fields and extra keys in the order of their first arrival. -/
theorem merge_monoid_and_precedence :
    (DistinctKeys {} ∧
      (∀ first second, DistinctKeys first → DistinctKeys second →
        DistinctKeys (merge first second)) ∧
      (∀ docs, DistinctKeys docs → merge {} docs = docs ∧ merge docs {} = docs) ∧
      ∀ first second third, DistinctKeys first → DistinctKeys second → DistinctKeys third →
        merge (merge first second) third = merge first (merge second third)) ∧
    ∀ route : Route, (∀ docs ∈ route.levels, docs.DistinctKeys) →
      (∀ {α : Type} (setting : Setting α),
        setting.get? route.mergedDocs = route.levels.reverse.findSome? setting.get?) ∧
      route.mergedDocs.tagDefinitions = route.levels.flatMap OperationDocs.tagDefinitions ∧
      route.mergedDocs.parameterLocations.names =
        (route.levels.flatMap fun docs => docs.parameterLocations.names).eraseDups ∧
      route.mergedDocs.extra.names =
        (route.levels.flatMap fun docs => docs.extra.names).eraseDups := by
  refine ⟨⟨OperationDocs.distinctKeys_default, fun first second distinct _ => distinct.merge second,
    fun docs distinct => ⟨OperationDocs.default_merge distinct, OperationDocs.merge_default docs⟩,
    fun first second third _ distinct _ => OperationDocs.merge_assoc first distinct third⟩, ?_⟩
  intro route distinct
  rw [mergedDocs_eq_foldl distinct]
  refine ⟨fun setting => ?_, ?_, ?_, ?_⟩
  · rw [setting.get?_foldl_merge distinct, setting.get?_default, Option.or_none]
  · exact OperationDocs.tagDefinitions_foldl_merge route.levels {}
  · exact OperationDocs.names_foldl_merge (fun _ _ => rfl) route.levels
      OperationDocs.distinctKeys_default.locations
  · exact OperationDocs.names_foldl_merge (fun _ _ => rfl) route.levels
      OperationDocs.distinctKeys_default.extra

/-- A route whose levels set overlapping fields and keys. -/
def overlapping : Route where
  service := some {
    docs := {
      summary := some "service"
      description := some "from service"
      tagDefinitions := [.bare "first"]
      parameterLocations := [("id", .body), ("page", .query)] } }
  routeDocs := { summary := some "route", extra := [("x-a", .bool true), ("x-b", .bool true)] }
  actionDocs := {
    deprecated := some true
    parameterLocations := [("sort", .query), ("id", .query)]
    extra := [("x-c", .null), ("x-a", .bool false)] }
  aliasDocs := { summary := some "alias", tagDefinitions := [.bare "second", .bare "first"] }

theorem overlapping_distinctKeys : ∀ docs ∈ overlapping.levels, docs.DistinctKeys := by
  simp only [levels, List.forall_mem_cons]
  exact ⟨⟨by decide, by decide⟩, ⟨by decide, by decide⟩, ⟨by decide, by decide⟩,
    ⟨by decide, by decide⟩, List.forall_mem_nil _⟩

/-- The strongest level that speaks is heard, and names keep their first places. -/
theorem overlapping_precedence :
    (∀ docs ∈ overlapping.levels, docs.DistinctKeys) ∧
    merge (merge overlapping.serviceDocs overlapping.actionDocs) overlapping.routeDocs =
      merge overlapping.serviceDocs (merge overlapping.actionDocs overlapping.routeDocs) ∧
    overlapping.mergedDocs.summary = some "alias" ∧
    overlapping.mergedDocs.parameterLocations.get? "id" = some .query ∧
    overlapping.mergedDocs.tagDefinitions = [.bare "first", .bare "second", .bare "first"] ∧
    overlapping.mergedDocs.extra.names = ["x-a", "x-b", "x-c"] := by
  have distinct := overlapping_distinctKeys
  rcases merge_monoid_and_precedence with ⟨⟨-, -, -, assoc⟩, ofRoute⟩
  rcases ofRoute overlapping distinct with ⟨setting, tags, -, extra⟩
  have ofService : overlapping.serviceDocs.DistinctKeys := distinct _ (by simp [levels])
  have ofRouteDocs : overlapping.routeDocs.DistinctKeys := distinct _ (by simp [levels])
  have ofAction : overlapping.actionDocs.DistinctKeys := distinct _ (by simp [levels])
  refine ⟨distinct, assoc _ _ _ ofService ofAction ofRouteDocs, ?_, ?_, ?_, ?_⟩
  · exact (setting .summary).trans (by decide)
  · exact (setting (.location "id")).trans (by decide)
  · exact tags.trans (by decide)
  · exact extra.trans (by decide)

end Route
end RouteDocs
