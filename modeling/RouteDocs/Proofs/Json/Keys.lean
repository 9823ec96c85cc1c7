import RouteDocs.Proofs.Json.Parts

namespace RouteDocs
namespace Json

/-!
# Keys that occur once

An object that is read never has a key twice, because a repeated key replaces
the value of the first.  `keysDistinct` says this of a value and everything
inside it, in a form that can be computed.
-/

mutual

/-- Whether no object inside the value has a key twice. -/
def keysDistinct (value : Json) : Bool :=
  match value with
  | .list items => keysDistinctItems items
  | .object entries => decide (Entries.names entries).Nodup && keysDistinctEntries entries
  | .null => true
  | .bool _ => true
  | .integer _ => true
  | .real _ => true
  | .text _ => true

def keysDistinctItems (items : List Json) : Bool :=
  match items with
  | [] => true
  | item :: rest => keysDistinct item && keysDistinctItems rest

def keysDistinctEntries (entries : List (String × Json)) : Bool :=
  match entries with
  | [] => true
  | (_, value) :: rest => keysDistinct value && keysDistinctEntries rest

end

theorem keysDistinctItems_iff {items : List Json} :
    keysDistinctItems items = true ↔ ∀ item ∈ items, item.keysDistinct = true := by
  induction items with
  | nil => exact ⟨fun _ _ member => absurd member List.not_mem_nil, fun _ => rfl⟩
  | cons item rest inductionHypothesis =>
    rw [keysDistinctItems, Bool.and_eq_true, inductionHypothesis, List.forall_mem_cons]

theorem keysDistinctEntries_iff {entries : List (String × Json)} :
    keysDistinctEntries entries = true ↔ ∀ entry ∈ entries, entry.2.keysDistinct = true := by
  induction entries with
  | nil => exact ⟨fun _ _ member => absurd member List.not_mem_nil, fun _ => rfl⟩
  | cons entry rest inductionHypothesis =>
    rw [keysDistinctEntries, Bool.and_eq_true, inductionHypothesis, List.forall_mem_cons]

theorem keysDistinct_object {entries : Entries Json} :
    (Json.object entries).keysDistinct = true ↔
      entries.names.Nodup ∧ ∀ entry ∈ entries, entry.2.keysDistinct = true := by
  rw [keysDistinct, Bool.and_eq_true, decide_eq_true_eq, keysDistinctEntries_iff]

/-- The value itself has no key twice. -/
def OwnKeysDistinct (value : Json) : Prop :=
  match value with
  | .object entries => (Entries.names entries).Nodup
  | _ => True

theorem keysDistinct_iff_everywhere {value : Json} :
    value.keysDistinct = true ↔ value.Everywhere OwnKeysDistinct := by
  induction value using inductionOnParts with
  | step value inductionHypothesis =>
    have scalar : value.parts = [] → OwnKeysDistinct value → value.Everywhere OwnKeysDistinct :=
      fun none own => .intro own (none ▸ List.forall_mem_nil _)
    cases value with
    | list items =>
      rw [keysDistinct, keysDistinctItems_iff]
      constructor
      · intro distinct
        exact .intro trivial fun item member =>
          (inductionHypothesis item member).mp (distinct item member)
      · exact fun holds item member =>
          (inductionHypothesis item member).mpr (holds.inside item member)
    | object entries =>
      rw [keysDistinct_object]
      have each : ∀ entry ∈ entries,
          (entry.2.keysDistinct = true ↔ entry.2.Everywhere OwnKeysDistinct) :=
        fun entry member => inductionHypothesis entry.2 (List.mem_map_of_mem member)
      constructor
      · rintro ⟨distinct, inside⟩
        refine .intro distinct fun part member => ?_
        rcases List.mem_map.mp member with ⟨entry, listed, rfl⟩
        exact (each entry listed).mp (inside entry listed)
      · intro holds
        exact ⟨holds.own, fun entry listed => (each entry listed).mpr (holds.entries entry listed)⟩
    | _ => exact ⟨fun _ => scalar rfl trivial, fun _ => rfl⟩

/-- A value that is read has no key twice, at any depth. -/
theorem keysDistinct_of_read? {text : String} {value : Json} (read : read? text = some value) :
    value.keysDistinct = true := by
  have ofReader : OfReader OwnKeysDistinct :=
    { text := fun _ => trivial
      word := fun word value found => by
        have scalar := parts_wordValue? found
        cases value with
        | object entries =>
          rw [List.map_eq_nil_iff.mp scalar]
          exact List.nodup_nil
        | _ => trivial
      list := fun _ => trivial
      object := fun _ distinct => distinct }
  exact keysDistinct_iff_everywhere.mpr (everywhere_of_read? ofReader read)

end Json
end RouteDocs
