import Mathlib.Data.List.Forall2

namespace RouteDocs

/-!
# Results that may fail

A result that is mapped fails exactly as it failed before, and what follows on a
result succeeds only after it.
-/

namespace Except

variable {ε α β : Type} {function : α → β} {result : Except ε α}

theorem eq_ok_of_map_eq_ok {value : β} (mapped : result.map function = .ok value) :
    ∃ found, result = .ok found ∧ function found = value := by
  cases result with
  | error fault => cases mapped
  | ok found => exact ⟨found, rfl, Except.ok.inj mapped⟩

theorem eq_ok_of_bind_eq_ok {next : α → Except ε β} {value : β}
    (bound : result.bind next = .ok value) :
    ∃ found, result = .ok found ∧ next found = .ok value := by
  cases result with
  | error fault => cases bound
  | ok found => exact ⟨found, rfl, bound⟩

theorem eq_ok_of_mapError_eq_ok {ε' : Type} {wrap : ε → ε'} {value : α}
    (mapped : result.mapError wrap = .ok value) : result = .ok value := by
  cases result with
  | error fault => cases mapped
  | ok found =>
    cases mapped
    rfl

theorem eq_error_of_map_eq_error {fault : ε} (failed : result.map function = .error fault) :
    result = .error fault := by
  cases result with
  | ok found => cases failed
  | error cause =>
    cases failed
    rfl

theorem forall₂_of_optionMapM {item? : Option α} {make : α → Except ε β} {made? : Option β}
    (mapped : item?.mapM make = .ok made?) :
    List.Forall₂ (fun item made => make item = .ok made) item?.toList made?.toList := by
  cases item? with
  | none =>
    cases mapped
    exact .nil
  | some item =>
    rcases eq_ok_of_map_eq_ok mapped with ⟨only, same, rfl⟩
    exact .cons same .nil

/-- What stands in a list has a partner in the list beside it. -/
theorem exists_of_mem_forall₂ {relation : α → β → Prop} {items : List α} {others : List β}
    (paired : List.Forall₂ relation items others) {other : β} (member : other ∈ others) :
    ∃ item ∈ items, relation item other := by
  induction paired with
  | nil => cases member
  | cons first _ inductionHypothesis =>
    rcases List.mem_cons.mp member with rfl | later
    · exact ⟨_, List.mem_cons_self, first⟩
    · rcases inductionHypothesis later with ⟨item, listed, related⟩
      exact ⟨item, List.mem_cons_of_mem _ listed, related⟩

/-- What is made of a list is made of its items. -/
theorem eq_ok_of_mem_mapM {items : List α} {make : α → Except ε β} {made : List β}
    (mapped : items.mapM make = .ok made) :
    ∀ value ∈ made, ∃ item ∈ items, make item = .ok value := by
  induction items generalizing made with
  | nil =>
    cases mapped
    exact List.forall_mem_nil _
  | cons item rest inductionHypothesis =>
    rw [List.mapM_cons] at mapped
    rcases eq_ok_of_bind_eq_ok mapped with ⟨first, found, afterFirst⟩
    rcases eq_ok_of_bind_eq_ok afterFirst with ⟨others, foundOthers, same⟩
    cases same
    refine List.forall_mem_cons.mpr ⟨⟨item, List.mem_cons_self, found⟩, fun value member => ?_⟩
    rcases inductionHypothesis foundOthers value member with ⟨source, listed, madeOf⟩
    exact ⟨source, List.mem_cons_of_mem _ listed, madeOf⟩

end Except
end RouteDocs
