import RouteDocs.Proofs.Decimal.Defined
import RouteDocs.Proofs.Json.Parts
import RouteDocs.Proofs.Schema.Comparable

namespace RouteDocs
namespace Json

/-!
# Orderly values

A value is the same as itself when no number inside it is undefined and no key
occurs twice in one object.
-/

/-- The value itself is no undefined number and has no key twice. -/
def IsOrderly (value : Json) : Prop :=
  match value with
  | .real number => Decimal.IsDefined number
  | .object entries => (Entries.names entries).Nodup
  | _ => True

/-- Entries are found again among all entries with different keys. -/
theorem sameEntries_of_subset {some all : Entries Json} (distinct : all.names.Nodup)
    (subset : some ⊆ all) (own : ∀ entry ∈ some, entry.2.Comparable) :
    sameEntries some all = true := by
  induction some with
  | nil => rw [sameEntries]
  | cons entry rest inductionHypothesis =>
    rcases entry with ⟨key, value⟩
    rcases List.forall_mem_cons.mp own with ⟨first, others⟩
    rcases List.cons_subset.mp subset with ⟨member, further⟩
    have found : Entries.get? all key = .some value := Entries.get?_of_mem distinct member
    simp only [sameEntries, found, inductionHypothesis further others, Bool.and_true]
    exact first

theorem comparable_of_orderly {value : Json} (orderly : value.Everywhere IsOrderly) :
    value.Comparable := by
  induction orderly with
  | @intro value own inside inductionHypothesis =>
    cases value with
    | null => rw [Comparable, same]
    | bool flag => rw [Comparable, same, beq_self_eq_true]
    | integer number => exact comparable_integer number
    | real number => rw [Comparable, same, Decimal.IsDefined.same own]
    | text characters => exact comparable_text characters
    | list items =>
      rw [Comparable, same]
      exact sameItems_self inductionHypothesis
    | object entries =>
      have each : ∀ entry ∈ entries, entry.2.Comparable :=
        fun entry member => inductionHypothesis entry.2 (List.mem_map_of_mem member)
      have found := sameEntries_of_subset own (List.Subset.refl entries) each
      rw [Comparable, same, beq_self_eq_true, Bool.true_and]
      exact found

end Json
end RouteDocs
