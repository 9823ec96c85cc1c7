import Mathlib.Logic.Relation
import RouteDocs.Proofs.Document.Calls

namespace RouteDocs

/-!
# References of a document lead to its components

The store of a generator is closed: every reference inside a component leads
to a component, and to one whose name lies within that of the first.  Three
things could break this.  A component of a claim may be passed over because
the route has stored the same before; then the earlier one is still there,
because names never leave the store.  A component may be replaced by one of
another route; its own references lead downwards as well.  A claim may fail;
then nothing of it arrives.
-/

namespace Store

/-- A component refers to another when a reference to it occurs inside it, at any depth. -/
def RefersTo (store : Store) (name target : String) : Prop :=
  ∃ object, store.get? name = some object ∧ object.Mentions target

def Closed (store : Store) : Prop :=
  Registrations.Descend store.components (· ∈ store.names)

theorem closed_empty : Closed {} := by
  intro entry impossible
  cases impossible

theorem Closed.record {store : Store} (closed : store.Closed) {registrations : Registrations}
    (descend : registrations.Descend fun target =>
      target ∈ store.names ∨ target ∈ Entries.names registrations) :
    (store.record registrations).Closed := by
  intro entry member target mentioned
  rcases mem_components_record member with registered | known
  · obtain ⟨present, within⟩ := descend entry registered target mentioned
    exact ⟨mem_names_record.mpr present, within⟩
  · obtain ⟨present, within⟩ := closed entry known target mentioned
    exact ⟨mem_names_record.mpr (Or.inl present), within⟩

theorem Closed.absorb {store other : Store} (closed : store.Closed)
    (descend : Registrations.Descend other.components fun target =>
      target ∈ store.names ∨ target ∈ other.names) : (store.absorb other).Closed := by
  have warned : Closed { store with warnings := store.warnings ++ other.warnings } := closed
  exact warned.record descend

theorem Closed.refersTo {store : Store} (closed : store.Closed) {name target : String}
    (refers : store.RefersTo name target) : target ∈ store.names ∧ Within name target := by
  obtain ⟨object, held, mentioned⟩ := refers
  exact closed (name, object) (Entries.mem_of_get?_eq_some held) target mentioned

/-- Each reference leads to a longer name, so no way along references is a circle. -/
theorem Closed.acyclic {store : Store} (closed : store.Closed) (name : String) :
    ¬ Relation.TransGen store.RefersTo name name := by
  have longer : ∀ target, Relation.TransGen store.RefersTo name target → Within name target := by
    intro target path
    induction path with
    | single refers => exact (closed.refersTo refers).2
    | tail _ refers inductionHypothesis =>
      exact inductionHypothesis.trans (closed.refersTo refers).2
  intro circle
  exact Nat.lt_irrefl _ (longer name circle).length_lt

theorem mem_names_absorb {store other : Store} {name : String} :
    name ∈ (store.absorb other).names ↔ name ∈ store.names ∨ name ∈ other.names := by
  rw [absorb_eq_record, mem_names_record]
  exact Iff.rfl

theorem mem_names_unrepeated {contribution : Contribution} {built : Store} {name : String}
    (present : name ∈ built.names) :
    name ∈ (contribution.unrepeated built).names ∨ name ∈ Entries.names contribution := by
  obtain ⟨object, held⟩ := mem_names_iff.mp present
  cases repeated : contribution.repeats name object with
  | true =>
    right
    unfold Contribution.repeats at repeated
    split at repeated
    · next known found => exact Entries.mem_names_iff.mpr ⟨known, found⟩
    · cases repeated
  | false =>
    left
    have retained : (name, object) ∈ (contribution.unrepeated built).components :=
      List.mem_filter.mpr
        ⟨Entries.mem_of_get?_eq_some held, by simp only [repeated, Bool.not_false]⟩
    exact Entries.mem_names_of_mem retained

end Store

/-- All references that a run has left behind lead to components. -/
structure Progress.Sound (progress : Progress) : Prop where
  closed : progress.assembly.store.Closed
  contributed : ∀ name ∈ Entries.names progress.contribution,
    name ∈ progress.assembly.store.names
  referenced : ∀ entry ∈ progress.assembly.documented, ∀ target,
    entry.operation.RefersTo target → target ∈ progress.assembly.store.names

namespace Claim

variable {claim : Claim} {earlier later : Progress}

theorem contributed_present (sound : earlier.Sound) :
    ∀ name ∈ Entries.names (claim.contributed earlier), name ∈ earlier.assembly.store.names := by
  intro name member
  unfold contributed at member
  split at member
  · cases member
  · exact sound.contributed name member

theorem referenced_share (sound : earlier.Sound) (path : String) (method : Method)
    (server : Server) : ∀ entry ∈ (earlier.assembly.share path method server).documented,
      ∀ target, entry.operation.RefersTo target → target ∈ earlier.assembly.store.names := by
  intro entry member target refers
  obtain ⟨original, listed, rfl⟩ := List.mem_map.mp member
  apply sound.referenced original listed target
  split at refers <;> exact refers

/-- What is known after an accepted claim: the components from before and all
that the claim has registered. -/
theorem mem_names_absorb_unrepeated (sound : earlier.Sound) {operation : Operation} {built : Store}
    (succeeded : claim.context.build = .ok (operation, built)) (name : String)
    (known : name ∈ earlier.assembly.store.names ∨
      name ∈ Entries.names claim.context.registrations) :
    name ∈ (earlier.assembly.store.absorb
      ((claim.contributed earlier).unrepeated built)).names := by
  rw [Store.mem_names_absorb]
  rcases known with before | registered
  · exact Or.inl before
  · obtain ⟨_, _, _, rfl⟩ := OperationContext.build_eq_ok succeeded
    have present : name ∈ (({} : Store).record claim.context.registrations).names :=
      Store.mem_names_record.mpr (Or.inr registered)
    rcases Store.mem_names_unrepeated present with fresh | repeated
    · exact Or.inr fresh
    · exact Or.inl (claim.contributed_present sound name repeated)

theorem closed_absorb_unrepeated (callers : claim.context.table.SeparatesNames)
    (sound : earlier.Sound) {operation : Operation} {built : Store}
    (succeeded : claim.context.build = .ok (operation, built)) :
    (earlier.assembly.store.absorb ((claim.contributed earlier).unrepeated built)).Closed := by
  apply sound.closed.absorb
  intro entry member target mentioned
  have registered : entry ∈ claim.context.registrations :=
    OperationContext.mem_registrations_of_build succeeded (List.mem_filter.mp member).1
  obtain ⟨found, within⟩ :=
    OperationContext.registrations_descend callers entry registered target mentioned
  have known := claim.mem_names_absorb_unrepeated sound succeeded target (Or.inr found)
  exact ⟨Store.mem_names_absorb.mp known, within⟩

theorem Step.sound (step : claim.Step earlier later)
    (callers : claim.context.table.SeparatesNames) (sound : earlier.Sound) : later.Sound := by
  cases step with
  | share existing server found shared =>
    exact ⟨sound.closed, claim.contributed_present sound, referenced_share sound _ _ server⟩
  | drop existing found refused =>
    exact ⟨sound.closed, claim.contributed_present sound, sound.referenced⟩
  | accept operation built free succeeded =>
    have known := claim.mem_names_absorb_unrepeated sound succeeded
    refine ⟨claim.closed_absorb_unrepeated callers sound succeeded, ?_, ?_⟩
    · intro name member
      obtain ⟨object, held⟩ := Entries.mem_names_iff.mp member
      rcases Entries.mem_or_get?_of_get?_overlay held with fresh | before
      · exact Store.mem_names_absorb.mpr (Or.inr (Entries.mem_names_of_mem fresh))
      · exact known name (Or.inl (claim.contributed_present sound name
          (Entries.mem_names_iff.mpr ⟨object, before⟩)))
    · intro entry member target refers
      rcases List.mem_append.mp member with documented | new
      · exact known target (Or.inl (sound.referenced entry documented target refers))
      · cases List.mem_singleton.mp new
        obtain ⟨inputs, rfl, draws, -⟩ := OperationContext.build_eq_ok succeeded
        obtain ⟨schema, listed, mentioned⟩ := refers
        rw [OperationContext.inputs_operation] at listed
        exact known target
          (Or.inr (OperationContext.registered_of_drawsOn callers (draws schema listed) mentioned))

theorem run_sound {claims : List Claim}
    (callers : ∀ claim ∈ claims, claim.context.table.SeparatesNames) {begun : Assembly}
    (none : begun.documented = []) (closed : begun.store.Closed) : (run claims (.start begun)).1.Sound := by
  apply run_invariant
  · refine ⟨closed, fun name impossible => ?_, fun entry impossible => ?_⟩
    · cases impossible
    · rw [show (Progress.start begun).assembly = begun from rfl, none] at impossible
      cases impossible
  · exact fun claim member _ _ step sound => step.sound (callers claim member) sound

end Claim

namespace Generator

variable {generator : Generator}

/-- All claims of a generation are converted with the table of the generator. -/
theorem separatesNames_of_mem_claims (callers : generator.table.SeparatesNames)
    {routes : List Route} :
    ∀ claim ∈ generator.workshop.claims routes, claim.context.table.SeparatesNames := by
  intro claim member
  obtain ⟨route, -, claimed⟩ := List.mem_flatMap.mp member
  obtain ⟨method, -, same⟩ := generator.workshop.mem_claimsOf claimed
  rw [same]
  exact callers

theorem performAll_closed (callers : generator.table.SeparatesNames)
    (closed : generator.store.Closed) (calls : List Call) :
    (generator.performAll calls).store.Closed :=
  @performAll_invariant Store.Closed Store.closed_empty generator
    (fun _ _ none closed => (Claim.run_sound (separatesNames_of_mem_claims callers) none closed).closed)
    closed calls

/-- After a successful generation from a closed store, what its run has left behind has no
dangling references. -/
theorem run_sound_of_closed (callers : generator.table.SeparatesNames)
    (closed : generator.store.Closed) (routes : List Route) {begun : Assembly}
    (started : generator.beginning = .ok begun) :
    (Claim.run (generator.claims routes) (.start begun)).1.Sound := by
  obtain ⟨none, store, -⟩ := beginning_eq_ok started
  exact Claim.run_sound (separatesNames_of_mem_claims callers) none
    (store ▸ startingStore_invariant Store.closed_empty closed)

/-- However a generator has been used, every reference at any depth of a
component leads to a component whose name lies within that of the first, and
never in a circle.  When the next generation succeeds, the references of all
its operations lead to components of the store that it leaves. -/
theorem references_lead_to_components (settings : Settings) (base : Entries Json)
    (calls : List Call) :
    (∀ name target, ((unused settings base).performAll calls).store.RefersTo name target →
      (∃ object, ((unused settings base).performAll calls).store.get? target = some object) ∧
        Within name target) ∧
    (∀ name, ¬ Relation.TransGen ((unused settings base).performAll calls).store.RefersTo
      name name) ∧
    ∀ versionText routes document,
      (((unused settings base).performAll calls).generate versionText routes).1 = .ok document →
      ∃ assembly, ((unused settings base).performAll calls).assemble routes = .ok (assembly, none) ∧
        (((unused settings base).performAll calls).generate versionText routes).2.store =
          assembly.store ∧
        ∀ entry ∈ assembly.documented, ∀ target, entry.operation.RefersTo target →
          ∃ object, assembly.store.get? target = some object := by
  have table : ((unused settings base).performAll calls).table = .builtin :=
    congrArg Workshop.table (workshop_performAll (unused settings base) calls)
  have callers : ((unused settings base).performAll calls).table.SeparatesNames :=
    table ▸ MapperTable.separatesNames_builtin
  have closed : ((unused settings base).performAll calls).store.Closed :=
    @performAll_closed (unused settings base) MapperTable.separatesNames_builtin Store.closed_empty calls
  refine ⟨fun name target refers => ?_, closed.acyclic, ?_⟩
  · obtain ⟨present, within⟩ := closed.refersTo refers
    exact ⟨Store.mem_names_iff.mp present, within⟩
  · intro versionText routes document succeeded
    obtain ⟨version, begun, reached, -, started, ran, -, left⟩ := generate_eq_ok succeeded
    have sound := run_sound_of_closed callers closed routes started
    rw [ran] at sound
    refine ⟨reached.assembly, ?_, ?_, ?_⟩
    · simp only [assemble_eq_run, started, Except.map, ran]
    · rw [left]
    · intro entry documented target refers
      exact Store.mem_names_iff.mp (sound.referenced entry documented target refers)

end Generator
end RouteDocs
