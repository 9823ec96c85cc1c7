import RouteDocs.Proofs.Document.Calls
import RouteDocs.Proofs.Document.Fields
import RouteDocs.Proofs.Sorting

namespace RouteDocs

/-!
# The order of routes and of paths

A generation sorts its routes by their normal paths before it does anything
else, and the sort is stable.  Therefore only the order of routes of one path
can show, however their paths are spelled.

The paths of the document are sorted in the end, those of the base together
with the generated ones.  A path is laid into the object of the base under its
own name, so no name occurs twice and the order is strict.
-/

namespace Route

theorem inPathOrder_eq (routes : List Route) :
    inPathOrder routes = routes.mergeSort (Sorting.byKey fullPath) := rfl

/-- Two lists have the same routes at every path, in the same order. -/
def SameAtPaths (routes others : List Route) : Prop :=
  ∀ path, routes.filter (fun route => route.fullPath == path) =
    others.filter fun route => route.fullPath == path

theorem SameAtPaths.inPathOrder_eq {routes others : List Route}
    (same : SameAtPaths routes others) : inPathOrder routes = inPathOrder others :=
  Sorting.mergeSort_eq_of_filter_eq same

/-- Such lists have the same routes: they are permutations of each other. -/
theorem SameAtPaths.perm {routes others : List Route} (same : SameAtPaths routes others) :
    routes.Perm others := by
  have ordered := (List.mergeSort_perm routes (Sorting.byKey fullPath)).symm
  rw [← Route.inPathOrder_eq, same.inPathOrder_eq] at ordered
  exact ordered.trans (List.mergeSort_perm others (Sorting.byKey fullPath))

/-- Routes of different paths can change places. -/
theorem SameAtPaths.swap {first second : Route} (different : first.fullPath ≠ second.fullPath) :
    SameAtPaths [first, second] [second, first] := by
  intro path
  by_cases here : first.fullPath = path
  · have elsewhere : second.fullPath ≠ path := fun same => different (here.trans same.symm)
    simp [here, elsewhere]
  · simp [List.filter_cons, here]

end Route

/-! ## The paths of a document -/

theorem Entries.strictlyAscending_sortedByName {entries : Entries Json}
    (distinct : entries.names.Nodup) : entries.sortedByName.names.Pairwise (· < ·) := by
  have sorted : entries.sortedByName.names.Pairwise (· ≤ ·) :=
    List.pairwise_map.mpr (Sorting.ascending_mergeSort Prod.fst entries)
  have still : entries.sortedByName.names.Nodup :=
    ((List.mergeSort_perm entries (Sorting.byKey Prod.fst)).map Prod.fst).nodup_iff.mpr distinct
  exact (sorted.and still).imp fun ⟨below, different⟩ => Std.lt_of_le_of_ne below different

namespace Document

theorem nodup_names_layOperation (version : Version) {paths : Entries Json}
    (distinct : paths.names.Nodup) (entry : Documented) :
    (layOperation version paths entry).names.Nodup := by
  unfold layOperation
  split
  · exact Entries.nodup_names_put distinct _ _
  · exact Entries.nodup_names_put distinct _ _
  · exact distinct

theorem nodup_names_laid (version : Version) (documented : List Documented) {paths : Entries Json}
    (distinct : paths.names.Nodup) :
    (documented.foldl (layOperation version) paths).names.Nodup := by
  induction documented generalizing paths with
  | nil => exact distinct
  | cons entry rest inductionHypothesis =>
    exact inductionHypothesis (nodup_names_layOperation version distinct entry)

/-- The paths of a document stand in the strict order of their names, also when
the base brings paths of its own. -/
theorem paths_strictlyAscending (version : Version) (versionText : String) {base : Entries Json}
    (distinct : base.names.Nodup) (inside : ∀ entry ∈ base, entry.2.keysDistinct = true)
    (assembly : Assembly) :
    ∃ paths : Entries Json,
      (render version versionText base assembly).field? "paths" = some (.object paths) ∧
        paths.names.Pairwise (· < ·) := by
  let laid := (assembly.documented.mergeSort fun first second =>
    decide (first.method.rank ≤ second.method.rank)).foldl (layOperation version)
      (Json.entriesOf (base.get? "paths"))
  have noneOwn : (own base).get? "paths" = none := get?_own distinct (Or.inl rfl)
  have generated : (generatedParts version base assembly).get? "paths" =
      some (.object laid.sortedByName) := rfl
  refine ⟨Json.withoutReservedEntries laid.sortedByName, ?_, ?_⟩
  · rw [field?_render version versionText base assembly (by decide) (by decide), noneOwn,
      generated, Option.none_or, Option.map_some, Json.withoutReserved_object]
  · have ascending : laid.sortedByName.names.Pairwise (· < ·) :=
      Entries.strictlyAscending_sortedByName
        (nodup_names_laid version _ (Json.nodup_names_entriesOf inside "paths"))
    rw [Json.names_withoutReservedEntries]
    exact ascending.filter _

end Document

namespace Generator

/-- What a document takes over from a base with distinct keys has distinct keys. -/
theorem keysDistinct_baseRest {base : Entries Json}
    (distinct : (Json.object base).keysDistinct = true) :
    (baseRest base).names.Nodup ∧ ∀ entry ∈ baseRest base, entry.2.keysDistinct = true := by
  obtain ⟨names, inside⟩ := Json.keysDistinct_object.mp distinct
  have first := (Entries.nodup_names_swapErase names "openapi").1
  have second := (Entries.nodup_names_swapErase first "tags").1
  refine ⟨(Entries.nodup_names_swapErase second "servers").1, fun entry member => ?_⟩
  exact inside entry (Entries.mem_of_mem_swapErase (Entries.mem_of_mem_swapErase
    (Entries.mem_of_mem_swapErase member)))

/-- A base that has been read from a text has no key twice.  This is what is asked of the
base wherever something is found in a document by its keys. -/
theorem keysDistinct_base_of_read? {text : String} {value : Json}
    (read : Json.read? text = some value) {generator used : Generator}
    (given : generator.withBase value = .ok used)
    (before : (Json.object generator.base).keysDistinct = true) :
    (Json.object used.base).keysDistinct = true := by
  have distinct := Json.keysDistinct_of_read? read
  cases value with
  | object entries =>
    cases given
    exact distinct
  | null =>
    cases given
    exact before
  | _ => cases given

/-- Only the order of routes of one path can show: lists with the same routes
at every path give the same document or the same fault, and leave the same
store and the same warnings.  The paths of every document ascend strictly. -/
theorem generate_eq_of_sameAtPaths (generator : Generator) (versionText : String)
    {routes others : List Route} (same : Route.SameAtPaths routes others) :
    generator.generate versionText routes = generator.generate versionText others ∧
      ((Json.object generator.base).keysDistinct = true →
        ∀ document, (generator.generate versionText routes).1 = .ok document →
          ∃ paths : Entries Json, document.field? "paths" = some (.object paths) ∧
            paths.names.Pairwise (· < ·)) := by
  constructor
  · simp only [generate, generateFor, assemble, same.inPathOrder_eq]
  · intro distinct document succeeded
    obtain ⟨version, begun, reached, -, -, -, rfl, -⟩ := generate_eq_ok succeeded
    obtain ⟨names, inside⟩ := keysDistinct_baseRest distinct
    exact Document.paths_strictlyAscending version versionText names inside reached.assembly

/-- Two routes in either order, over a base with a path of its own. -/
theorem generate_eq_of_sameAtPaths_passing :
    ∃ (document : Json) (paths : Entries Json),
      ((unused {} [("paths", .object [("/b", .object [])])]).generate "3.0"
        [.passing .get "c", .passing .get "/:a"]).1 = .ok document ∧
      ((unused {} [("paths", .object [("/b", .object [])])]).generate "3.0"
        [.passing .get "/:a", .passing .get "c"]).1 = .ok document ∧
      document.field? "paths" = some (.object paths) ∧ paths.names.Pairwise (· < ·) := by
  have different : (Route.passing .get "c").fullPath ≠ (Route.passing .get "/:a").fullPath := by
    decide
  have both := generate_eq_of_sameAtPaths
    (unused {} [("paths", .object [("/b", .object [])])]) "3.0" (Route.SameAtPaths.swap different)
  obtain ⟨document, succeeded⟩ := generate_passing {}
    (by decide : Version.ofText? "3.0" = some .v30)
    (rfl : (unused {} [("paths", .object [("/b", .object [])])]).beginning = .ok _)
    [(.get, "c"), (.get, "/:a")]
  obtain ⟨paths, found, ascending⟩ := both.2 (by decide) document succeeded
  exact ⟨document, paths, succeeded, both.1 ▸ succeeded, found, ascending⟩

end Generator
end RouteDocs
