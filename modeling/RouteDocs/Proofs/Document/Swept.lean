import RouteDocs.Proofs.Document.Calls
import RouteDocs.Proofs.Document.Fields
import RouteDocs.Proofs.Json.Places

namespace RouteDocs

/-!
# What the sweep leaves

The sweep takes every reserved key out of a document, with what stands under it.  What it
leaves is told by places: those that are reached without a reserved key, each with what
stood there before and in the order of before.  A value is determined by its places, so
this is all that the sweep does (`reserved_keys_are_swept`).
-/

namespace Json

/-- The step does not go through a reserved key. -/
def Step.isOrdinary (step : Step) : Bool :=
  match step with
  | .item _ => true
  | .key name => !isReserved name

/-- The place is reached without a reserved key. -/
def Place.isOrdinary (place : Place) : Bool :=
  place.steps.all Step.isOrdinary

/-- The value itself has no reserved key. -/
def OwnKeysOrdinary (value : Json) : Prop :=
  match value with
  | .object entries => ∀ name ∈ Entries.names entries, isReserved name = false
  | _ => True

theorem ownKeysOrdinary_iff {value : Json} :
    value.OwnKeysOrdinary ↔ ∀ branch ∈ value.branches, branch.1.isOrdinary = true := by
  cases value with
  | list items =>
    refine ⟨fun _ branch member => ?_, fun _ => trivial⟩
    obtain ⟨item, -, rfl⟩ := List.mem_map.mp member
    rfl
  | object entries =>
    have ordinary : ∀ name, isReserved name = false ↔ (Step.key name).isOrdinary = true :=
      fun name => (Bool.not_eq_true' _).symm.to_iff
    rw [OwnKeysOrdinary, branches, Entries.names, List.forall_mem_map, List.forall_mem_map]
    simp only [ordinary]
  | _ => exact ⟨fun _ => List.forall_mem_nil _, fun _ => trivial⟩

/-! ## One step of the sweep -/

theorem shell_withoutReserved (value : Json) : (withoutReserved value).shell = value.shell := by
  cases value <;> rw [withoutReserved] <;> rfl

/-- The branches with ordinary steps are left, each swept in turn. -/
theorem branches_withoutReserved (value : Json) :
    (withoutReserved value).branches =
      (value.branches.filter fun branch => branch.1.isOrdinary).map fun branch =>
        (branch.1, withoutReserved branch.2) := by
  cases value with
  | list items =>
    have ordinary : ∀ branch ∈ (Json.list items).branches, branch.1.isOrdinary = true :=
      ownKeysOrdinary_iff.mp trivial
    rw [List.filter_eq_self.mpr ordinary, withoutReserved_list, branches, branches,
      List.zipIdx_map, List.map_map, List.map_map]
    rfl
  | object entries =>
    rw [withoutReserved_object, withoutReservedEntries_eq, branches, branches, List.map_map,
      List.filter_map, List.map_map]
    rfl
  | _ =>
    rw [withoutReserved]
    rfl

/-- After the sweep no key at any depth is reserved. -/
theorem everywhere_withoutReserved (value : Json) :
    (withoutReserved value).Everywhere OwnKeysOrdinary := by
  induction value using inductionOnParts with
  | step value inductionHypothesis =>
    refine .intro (ownKeysOrdinary_iff.mpr fun branch member => ?_) fun part member => ?_
    · rw [branches_withoutReserved] at member
      obtain ⟨source, kept, rfl⟩ := List.mem_map.mp member
      exact (List.mem_filter.mp kept).2
    · rw [← map_snd_branches, branches_withoutReserved, List.map_map] at member
      obtain ⟨source, kept, rfl⟩ := List.mem_map.mp member
      have listed := mem_parts_of_mem_branches (List.mem_filter.mp kept).1
      exact inductionHypothesis source.2 listed

theorem withoutReserved_of_everywhere {value : Json} (ordinary : value.Everywhere OwnKeysOrdinary) :
    withoutReserved value = value := by
  induction ordinary with
  | @intro value own inside inductionHypothesis =>
    refine eq_of_shell_of_branches (shell_withoutReserved value) ?_
    have same : ∀ branch ∈ value.branches, (branch.1, withoutReserved branch.2) = branch := by
      intro branch member
      rw [inductionHypothesis branch.2 (mem_parts_of_mem_branches member)]
    rw [branches_withoutReserved, List.filter_eq_self.mpr (ownKeysOrdinary_iff.mp own),
      List.map_congr_left same, List.map_id']

/-- The values that the sweep leaves as they are. -/
theorem withoutReserved_eq_self_iff {value : Json} :
    withoutReserved value = value ↔ value.Everywhere OwnKeysOrdinary :=
  ⟨fun same => same ▸ everywhere_withoutReserved value, withoutReserved_of_everywhere⟩

theorem withoutReserved_withoutReserved (value : Json) :
    withoutReserved (withoutReserved value) = withoutReserved value :=
  withoutReserved_of_everywhere (everywhere_withoutReserved value)

/-! ## The places that are left -/

theorem filter_map_below (step : Step) (places : List Place) :
    (places.map (Place.below step)).filter Place.isOrdinary =
      if step.isOrdinary then (places.filter Place.isOrdinary).map (Place.below step) else [] := by
  have below : Place.isOrdinary ∘ Place.below step =
      fun place => step.isOrdinary && place.isOrdinary := rfl
  rw [List.filter_map, below]
  cases step.isOrdinary with
  | true => rfl
  | false =>
    simp only [Bool.false_and, List.filter_false, List.map_nil, Bool.false_eq_true, if_false]

theorem filter_placesInside {branches : List (Step × Json)}
    (swept : ∀ branch ∈ branches,
      (withoutReserved branch.2).places = branch.2.places.filter Place.isOrdinary) :
    placesInside ((branches.filter fun branch => branch.1.isOrdinary).map fun branch =>
      (branch.1, withoutReserved branch.2)) = (placesInside branches).filter Place.isOrdinary := by
  induction branches with
  | nil => rfl
  | cons branch others inductionHypothesis =>
    obtain ⟨first, later⟩ := List.forall_mem_cons.mp swept
    rw [placesInside_cons, List.filter_append, filter_map_below, ← inductionHypothesis later]
    cases ordinary : branch.1.isOrdinary with
    | true =>
      have kept : (branch :: others).filter (fun branch => branch.1.isOrdinary) =
          branch :: others.filter fun branch => branch.1.isOrdinary :=
        List.filter_cons_of_pos ordinary
      rw [kept, List.map_cons, placesInside_cons, first, if_pos rfl]
    | false =>
      have left : (branch :: others).filter (fun branch => branch.1.isOrdinary) =
          others.filter fun branch => branch.1.isOrdinary :=
        List.filter_cons_of_neg (by rw [ordinary]; decide)
      rw [left]
      rfl

/-- The sweep leaves the places that are reached without a reserved key, in their order. -/
theorem places_withoutReserved (value : Json) :
    (withoutReserved value).places = value.places.filter Place.isOrdinary := by
  induction value using inductionOnParts with
  | step value inductionHypothesis =>
    rw [places_eq, places_eq, shell_withoutReserved, branches_withoutReserved,
      List.filter_cons_of_pos rfl, filter_placesInside]
    exact fun branch member => inductionHypothesis branch.2 (mem_parts_of_mem_branches member)

end Json

namespace Generator

/-- The sweep leaves no reserved key at any depth.  It leaves exactly the places that are
reached without one, in the order of before, and there the same scalars, lists and objects.
The values that it does not change are those without reserved keys; so a second sweep
changes nothing, nor does a sweep of a document that was generated. -/
theorem reserved_keys_are_swept :
    (∀ value : Json,
      value.withoutReserved.Everywhere Json.OwnKeysOrdinary ∧
      (∀ swept : Json, value.withoutReserved = swept ↔
        swept.places = value.places.filter Json.Place.isOrdinary) ∧
      (value.withoutReserved = value ↔ value.Everywhere Json.OwnKeysOrdinary) ∧
      value.withoutReserved.withoutReserved = value.withoutReserved) ∧
    ∀ (generator : Generator) (versionText : String) (routes : List Route) (document : Json),
      (generator.generate versionText routes).1 = .ok document →
        document.withoutReserved = document := by
  constructor
  · intro value
    have places : ∀ swept : Json, value.withoutReserved = swept ↔
        swept.places = value.places.filter Json.Place.isOrdinary := by
      intro swept
      rw [← Json.places_withoutReserved, Json.places_injective.eq_iff, eq_comm]
    exact ⟨Json.everywhere_withoutReserved value, places, Json.withoutReserved_eq_self_iff,
      Json.withoutReserved_withoutReserved value⟩
  · intro generator versionText routes document succeeded
    obtain ⟨version, begun, reached, -, -, -, rfl, -⟩ := generate_eq_ok succeeded
    exact Json.withoutReserved_withoutReserved _

/-- A base with reserved keys at its outside and inside. -/
def noted : Entries Json :=
  [("$$note", .null),
   ("info", .object [("title", .text "kept"), ("$$by", .list [.text "taken out"])]),
   ("x-list", .list [.object [("$$seen", .bool true)], .integer 1])]

theorem reserved_keys_are_swept_noted :
    ∃ document,
      ((unused {} noted).generate "3.0" [.passing .get "/b"]).1 = .ok document ∧
      document.withoutReserved = document := by
  obtain ⟨document, succeeded⟩ := generate_passing {}
    (by decide : Version.ofText? "3.0" = some .v30)
    (rfl : (unused {} noted).beginning = .ok _) [(.get, "/b")]
  exact ⟨document, succeeded, reserved_keys_are_swept.2 _ _ _ document succeeded⟩

/-- What is left of this base: an object that becomes empty stays in its list. -/
example : Json.withoutReserved (.object noted) =
    .object [("info", .object [("title", .text "kept")]),
      ("x-list", .list [.object [], .integer 1])] :=
  rfl

end Generator
end RouteDocs
