import RouteDocs.Operation.Parameters
import RouteDocs.Proofs.Store.Lifting

namespace RouteDocs

/-!
# Computations that only register

The parameters of an operation are worked out in a computation that threads a
store and may fail.  None of its steps lets the result depend on the store it
started from.  `Settles` says this of a computation, together with the exact
registrations of a successful run and a property of its value: it behaves the
same way on every store, so what is known of the empty store of a single
operation is known of all stores.  Its rules follow the way computations are
put together.
-/

namespace Extraction

variable {α β : Type}

/-- On every store the computation succeeds with the value and replays the registrations. -/
def Yields (extraction : Extraction α) (value : α) (registrations : Registrations) : Prop :=
  ∀ store : Store, extraction.run store = (.ok value, store.record registrations)

/-- On every store the computation fails, always for the same reason. -/
def Fails (extraction : Extraction α) (fault : Fault) : Prop :=
  ∀ store : Store, ∃ left, extraction.run store = (.error fault, left)

/-- The computation fails on every store or yields, on every store, the same
value with the given property and the given registrations. -/
def Settles (extraction : Extraction α) (registrations : Registrations)
    (property : α → Prop) : Prop :=
  (∃ value, property value ∧ extraction.Yields value registrations) ∨
    ∃ fault, extraction.Fails fault

theorem run_bind (first : Extraction α) (next : α → Extraction β) (store : Store) :
    (first >>= next).run store =
      match first.run store with
      | (.ok value, filled) => (next value).run filled
      | (.error fault, filled) => (.error fault, filled) := by
  change ((first.run >>= ExceptT.bindCont next : StateM Store _) store) = _
  change (match first.run store with
    | (result, filled) => (ExceptT.bindCont next result : StateM Store _) filled) = _
  rcases first.run store with ⟨_ | _, filled⟩ <;> rfl

theorem run_pure (value : α) (store : Store) :
    (pure value : Extraction α).run store = (.ok value, store) := rfl

theorem run_get (store : Store) : (get : Extraction Store).run store = (.ok store, store) := rfl

theorem run_ofConversion (result : Except Fault α) (store : Store) :
    (ofConversion result).run store = (result, store) := rfl

theorem run_ofStore (change : Store → α × Store) (store : Store) :
    (ofStore change).run store = (.ok (change store).1, (change store).2) := rfl

/-! ## Success of the parts

A computation that succeeds has succeeded in its first part and then in the rest. -/

theorem eq_ok_of_run_bind {first : Extraction α} {next : α → Extraction β} {store left : Store}
    {value : β} (succeeded : (first >>= next).run store = (.ok value, left)) :
    ∃ found middle, first.run store = (.ok found, middle) ∧
      (next found).run middle = (.ok value, left) := by
  rw [run_bind] at succeeded
  split at succeeded
  · next found middle ran => exact ⟨found, middle, ran, succeeded⟩
  · cases succeeded

theorem eq_ok_of_run_ofConversion_bind {result : Except Fault α} {next : α → Extraction β}
    {store left : Store} {value : β}
    (succeeded : (ofConversion result >>= next).run store = (.ok value, left)) :
    ∃ found, result = .ok found ∧ (next found).run store = (.ok value, left) := by
  obtain ⟨found, middle, ran, rest⟩ := eq_ok_of_run_bind succeeded
  cases ran
  exact ⟨found, rfl, rest⟩

theorem eq_ok_of_run_ofStore_bind {change : Store → α × Store} {next : α → Extraction β}
    {store left : Store} {value : β}
    (succeeded : (ofStore change >>= next).run store = (.ok value, left)) :
    (next (change store).1).run (change store).2 = (.ok value, left) := by
  obtain ⟨found, middle, ran, rest⟩ := eq_ok_of_run_bind succeeded
  cases ran
  exact rest

theorem eq_of_run_pure {value found : α} {store left : Store}
    (succeeded : (pure value : Extraction α).run store = (.ok found, left)) : found = value := by
  cases succeeded
  rfl

namespace Settles

variable {property : α → Prop}

theorem pure {value : α} (holds : property value) :
    Settles (Pure.pure value) [] property :=
  Or.inl ⟨value, holds, fun _ => rfl⟩

theorem ofConversion (result : Except Fault α) :
    Settles (Extraction.ofConversion result) [] fun value => result = .ok value := by
  cases result with
  | ok value => exact Or.inl ⟨value, rfl, fun _ => rfl⟩
  | error fault => exact Or.inr ⟨fault, fun store => ⟨store, rfl⟩⟩

theorem ofStore {change : Store → α × Store} {value : α} {registrations : Registrations}
    (replays : ∀ store, change store = (value, store.record registrations)) :
    Settles (Extraction.ofStore change) registrations fun result => result = value := by
  refine Or.inl ⟨value, rfl, fun store => ?_⟩
  rw [run_ofStore, replays store]

theorem imp {extraction : Extraction α} {registrations : Registrations} {weaker : α → Prop}
    (settles : Settles extraction registrations property)
    (implies : ∀ value, property value → weaker value) :
    Settles extraction registrations weaker := by
  rcases settles with ⟨value, holds, yields⟩ | fails
  · exact Or.inl ⟨value, implies value holds, yields⟩
  · exact Or.inr fails

/-- One computation after another registers what the two register in turn. -/
theorem bind {first : Extraction α} {next : α → Extraction β}
    {registrations following : Registrations} {result : β → Prop}
    (settles : Settles first registrations property)
    (continues : ∀ value, property value → Settles (next value) following result) :
    Settles (first >>= next) (registrations ++ following) result := by
  rcases settles with ⟨value, holds, yields⟩ | ⟨fault, fails⟩
  · rcases continues value holds with ⟨final, reached, yieldsNext⟩ | ⟨fault, failsNext⟩
    · refine Or.inl ⟨final, reached, fun store => ?_⟩
      rw [run_bind, yields store, Store.record_append]
      exact yieldsNext _
    · refine Or.inr ⟨fault, fun store => ?_⟩
      rw [run_bind, yields store]
      exact failsNext _
  · refine Or.inr ⟨fault, fun store => ?_⟩
    obtain ⟨left, failed⟩ := fails store
    exact ⟨left, by rw [run_bind, failed]⟩

theorem bind_nil {first : Extraction α} {next : α → Extraction β} {following : Registrations}
    {result : β → Prop} (settles : Settles first [] property)
    (continues : ∀ value, property value → Settles (next value) following result) :
    Settles (first >>= next) following result :=
  bind settles continues

theorem bind_pure {first : Extraction α} {make : α → β} {registrations : Registrations}
    {result : β → Prop} (settles : Settles first registrations property)
    (implies : ∀ value, property value → result (make value)) :
    Settles (first >>= fun value => Pure.pure (make value)) registrations result := by
  have settled := bind settles fun value holds => pure (implies value holds)
  rwa [List.append_nil] at settled

/-- Computations for the items of a list register what they register one after the other. -/
theorem mapM {items : List β} {step : β → Extraction α} {registrations : β → Registrations}
    {property : β → α → Prop}
    (settles : ∀ item ∈ items, Settles (step item) (registrations item) (property item)) :
    Settles (items.mapM step) (items.flatMap registrations) fun values =>
      ∀ value ∈ values, ∃ item ∈ items, property item value := by
  induction items with
  | nil =>
    rw [List.mapM_nil]
    exact pure fun value member => absurd member List.not_mem_nil
  | cons item rest inductionHypothesis =>
    rw [List.mapM_cons]
    have first := settles item List.mem_cons_self
    have others := inductionHypothesis fun other member =>
      settles other (List.mem_cons_of_mem _ member)
    apply bind first
    intro value holds
    apply bind_pure others
    intro values reached result member
    rcases List.mem_cons.mp member with rfl | later
    · exact ⟨item, List.mem_cons_self, holds⟩
    · obtain ⟨other, listed, found⟩ := reached result later
      exact ⟨other, List.mem_cons_of_mem _ listed, found⟩

/-- A success on one store is the same success on every store. -/
theorem yields_of_run {extraction : Extraction α} {registrations : Registrations}
    (settles : Settles extraction registrations property) {store left : Store} {value : α}
    (succeeded : extraction.run store = (.ok value, left)) :
    property value ∧ extraction.Yields value registrations := by
  rcases settles with ⟨found, holds, yields⟩ | ⟨fault, fails⟩
  · have same := succeeded.symm.trans (yields store)
    cases same
    exact ⟨holds, yields⟩
  · obtain ⟨_, failed⟩ := fails store
    rw [succeeded] at failed
    cases failed

end Settles
end Extraction
end RouteDocs
