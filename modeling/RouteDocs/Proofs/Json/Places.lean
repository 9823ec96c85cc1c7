import RouteDocs.Proofs.Json.Parts

namespace RouteDocs
namespace Json

/-!
# The places of a value

Whatever is inside a value stands at a place, which is reached from the outside by indices
and keys.  `places` lists the places in the order in which the value is written, each with
what stands there: a scalar as it is, a list or an object without what is inside it.

Different values have different lists (`places_injective`).  A list of places does not say
where a part of the value ends, but what is inside a part stands deeper than the part
itself, and the next part stands as high as the one before.
-/

/-- A step from a value to one that is directly inside it. -/
inductive Step where
  | item (index : Nat)
  | key (name : String)

/-- A value inside a value, without what is inside it in turn. -/
structure Place where
  steps : List Step
  shell : Json

namespace Place

/-- The place as it is reached from one step further out. -/
def below (step : Step) (place : Place) : Place :=
  { place with steps := step :: place.steps }

theorem below_injective (step : Step) : Function.Injective (below step) := by
  rintro ⟨steps, shell⟩ ⟨others, found⟩ equal
  cases equal
  rfl

/-- Whether the place is deeper than directly inside the value. -/
def isDeep (place : Place) : Bool :=
  1 < place.steps.length

end Place

/-- A value without what is inside it. -/
def shell (value : Json) : Json :=
  match value with
  | .list _ => .list []
  | .object _ => .object []
  | scalar => scalar

/-- The items of a list or the values of an object, with the steps to them. -/
def branches (value : Json) : List (Step × Json) :=
  match value with
  | .list items => items.zipIdx.map fun item => (.item item.2, item.1)
  | .object entries => entries.map fun entry => (.key entry.1, entry.2)
  | _ => []

theorem map_snd_branches (value : Json) : value.branches.map Prod.snd = value.parts := by
  cases value with
  | list items =>
    rw [branches, List.map_map]
    exact List.zipIdx_map_fst 0 items
  | object entries =>
    rw [branches, List.map_map]
    rfl
  | _ => rfl

theorem mem_parts_of_mem_branches {value : Json} {branch : Step × Json}
    (member : branch ∈ value.branches) : branch.2 ∈ value.parts :=
  map_snd_branches value ▸ List.mem_map_of_mem member

theorem eq_of_shell_of_branches {first second : Json} (shells : first.shell = second.shell)
    (same : first.branches = second.branches) : first = second := by
  have parts : first.parts = second.parts := by
    rw [← map_snd_branches, same, map_snd_branches]
  cases first with
  | list items =>
    cases second with
    | list others => exact congrArg Json.list parts
    | _ => cases shells
  | object entries =>
    cases second with
    | object others =>
      have injective : Function.Injective fun entry : String × Json =>
          (Step.key entry.1, entry.2) := by
        rintro ⟨key, value⟩ ⟨other, found⟩ equal
        cases equal
        rfl
      exact congrArg Json.object (List.map_injective_iff.mpr injective same)
    | _ => cases shells
  | _ =>
    cases second with
    | list others => cases shells
    | object others => cases shells
    | _ => exact shells

/-- The places of a value, in the order in which it is written. -/
def places (value : Json) : List Place :=
  ⟨[], value.shell⟩ :: value.branches.attach.flatMap fun branch =>
    branch.1.2.places.map (Place.below branch.1.1)
termination_by value.weight
decreasing_by exact weight_lt_of_mem_parts (mem_parts_of_mem_branches branch.2)

/-- The places of what is inside branches. -/
def placesInside (branches : List (Step × Json)) : List Place :=
  branches.flatMap fun branch => branch.2.places.map (Place.below branch.1)

theorem places_eq (value : Json) :
    value.places = ⟨[], value.shell⟩ :: placesInside value.branches := by
  have unattached := List.flatMap_map Subtype.val
    (fun branch : Step × Json => branch.2.places.map (Place.below branch.1)) value.branches.attach
  rw [List.attach_map_subtype_val] at unattached
  rw [places, placesInside, unattached]

/-- A list has its place in front of those of its items. -/
example : (Json.object [("a", .list [.null, .bool true]), ("b", .object [])]).places =
    [⟨[], .object []⟩, ⟨[.key "a"], .list []⟩, ⟨[.key "a", .item 0], .null⟩,
      ⟨[.key "a", .item 1], .bool true⟩, ⟨[.key "b"], .object []⟩] := by
  cbv

theorem placesInside_cons (branch : Step × Json) (others : List (Step × Json)) :
    placesInside (branch :: others) =
      branch.2.places.map (Place.below branch.1) ++ placesInside others :=
  List.flatMap_cons

theorem placesInside_cons_eq_cons (branch : Step × Json) (others : List (Step × Json)) :
    placesInside (branch :: others) =
      ⟨[branch.1], branch.2.shell⟩ ::
        ((placesInside branch.2.branches).map (Place.below branch.1) ++ placesInside others) := by
  rw [placesInside_cons, places_eq, List.map_cons, List.cons_append]
  rfl

/-! ## Reading the list back -/

theorem steps_ne_nil_of_mem_placesInside {branches : List (Step × Json)} {place : Place}
    (member : place ∈ placesInside branches) : place.steps ≠ [] := by
  obtain ⟨branch, -, inBranch⟩ := List.mem_flatMap.mp member
  obtain ⟨inner, -, rfl⟩ := List.mem_map.mp inBranch
  exact List.cons_ne_nil _ _

/-- What is inside one branch stands deep, and the next branch does not. -/
theorem takeWhile_isDeep (step : Step) (branches others : List (Step × Json)) :
    ((placesInside branches).map (Place.below step) ++ placesInside others).takeWhile
      Place.isDeep = (placesInside branches).map (Place.below step) := by
  have deep : ∀ place ∈ (placesInside branches).map (Place.below step),
      place.isDeep = true := by
    intro place member
    obtain ⟨inner, inside, rfl⟩ := List.mem_map.mp member
    have further := List.length_pos_iff.mpr (steps_ne_nil_of_mem_placesInside inside)
    exact decide_eq_true (Nat.succ_lt_succ further)
  rw [List.takeWhile_append_of_pos deep]
  cases others with
  | nil => exact List.append_nil _
  | cons branch more =>
    have next : Place.isDeep ⟨[branch.1], branch.2.shell⟩ = false := rfl
    rw [placesInside_cons_eq_cons, List.takeWhile_cons_of_neg (by rw [next]; decide),
      List.append_nil]

/-- The first branch is read back from the places inside branches, and the rest is left. -/
theorem placesInside_cons_inj {first second : Step × Json} {others more : List (Step × Json)}
    (same : placesInside (first :: others) = placesInside (second :: more)) :
    first.1 = second.1 ∧ first.2.places = second.2.places ∧
      placesInside others = placesInside more := by
  rw [placesInside_cons_eq_cons, placesInside_cons_eq_cons, List.cons.injEq, Place.mk.injEq] at same
  obtain ⟨⟨step, shells⟩, rest⟩ := same
  obtain ⟨first, value⟩ := first
  obtain ⟨second, other⟩ := second
  cases (List.cons.inj step).1
  -- The first branch ends where the next place is not deep, so it is cut off alike on both sides.
  have inside := congrArg (List.takeWhile Place.isDeep) rest
  rw [takeWhile_isDeep, takeWhile_isDeep] at inside
  rw [inside] at rest
  refine ⟨rfl, ?_, List.append_cancel_left rest⟩
  rw [places_eq, places_eq, shells, List.map_injective_iff.mpr (Place.below_injective first) inside]

/-- Branches are read back from their places when the values in them are. -/
theorem eq_of_placesInside {branches others : List (Step × Json)}
    (readBack : ∀ branch ∈ branches, ∀ other : Json,
      branch.2.places = other.places → branch.2 = other)
    (same : placesInside branches = placesInside others) : branches = others := by
  induction branches generalizing others with
  | nil =>
    cases others with
    | nil => rfl
    | cons other more =>
      rw [placesInside_cons_eq_cons] at same
      cases same
  | cons branch rest inductionHypothesis =>
    cases others with
    | nil =>
      rw [placesInside_cons_eq_cons] at same
      cases same
    | cons other more =>
      obtain ⟨step, places, further⟩ := placesInside_cons_inj same
      obtain ⟨first, later⟩ := List.forall_mem_cons.mp readBack
      rw [inductionHypothesis later further, Prod.ext step (first other.2 places)]

/-- Different values have different places. -/
theorem places_injective : Function.Injective places := by
  intro first
  induction first using inductionOnParts with
  | step first inductionHypothesis =>
    intro second same
    rw [places_eq, places_eq, List.cons.injEq, Place.mk.injEq] at same
    obtain ⟨⟨-, shells⟩, inside⟩ := same
    refine eq_of_shell_of_branches shells (eq_of_placesInside ?_ inside)
    intro branch member other places
    exact inductionHypothesis branch.2 (mem_parts_of_mem_branches member) places

end Json
end RouteDocs
