import RouteDocs.Json.Basic

namespace RouteDocs
namespace Json

/-!
# The weight of a value

The number of nodes of a value, an object counting twice and every item or
entry once more.  Every part of a list or object is lighter than the whole, so
a reader that goes down into the parts comes to an end.
-/

mutual

/-- The weight of a value. -/
def weight (value : Json) : Nat :=
  match value with
  | .list items => 1 + weightItems items
  | .object entries => 2 + weightEntries entries
  | .null => 1
  | .bool _ => 1
  | .integer _ => 1
  | .real _ => 1
  | .text _ => 1

def weightItems (items : List Json) : Nat :=
  match items with
  | [] => 0
  | item :: rest => 1 + weight item + weightItems rest

def weightEntries (entries : List (String × Json)) : Nat :=
  match entries with
  | [] => 0
  | (_, value) :: rest => 1 + weight value + weightEntries rest

end

/-- A value found in an object is lighter than the object's entries. -/
theorem weight_lt_of_get?_eq_some {entries : Entries Json} {name : String} {value : Json}
    (found : Entries.get? entries name = some value) : weight value < weightEntries entries := by
  induction entries with
  | nil => simp [Entries.get?] at found
  | cons entry rest inductionHypothesis =>
    unfold Entries.get? at found
    unfold weightEntries
    split at found
    · cases found
      omega
    · have := inductionHypothesis found
      omega

/-- Leaving entries out never adds weight. -/
theorem weightEntries_filter_le (keep : String × Json -> Bool) (entries : List (String × Json)) :
    weightEntries (entries.filter keep) ≤ weightEntries entries := by
  induction entries with
  | nil => simp
  | cons entry rest inductionHypothesis =>
    rw [List.filter_cons]
    split
    · simp only [weightEntries]
      omega
    · simp only [weightEntries]
      omega

end Json
end RouteDocs
