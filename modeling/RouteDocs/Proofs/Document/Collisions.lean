import RouteDocs.Proofs.Document.Calls

namespace RouteDocs

/-!
# No component is lost without a warning

An assembly keeps an object under a name when its store holds exactly this
object there, or when a collision was noted for the name.  What is kept stays
kept.  The one danger is a component that a claim passes over because its
route has stored the same before: comparing as the same is weaker than being
identical.  For two methods of one route it is strong enough, and what the
earlier method has registered is kept already.
-/

def Assembly.Keeps (assembly : Assembly) (name : String) (object : SchemaObject) : Prop :=
  assembly.store.get? name = some object ∨ .componentCollision name ∈ assembly.warnings

def Assembly.KeepsAll (assembly : Assembly) (registrations : Registrations) : Prop :=
  ∀ entry ∈ registrations, assembly.Keeps entry.1 entry.2

namespace Assembly

theorem Keeps.absorb {assembly : Assembly} {name : String} {object : SchemaObject}
    (kept : assembly.Keeps name object) (components : Store) :
    (assembly.absorb components).Keeps name object := by
  rcases kept with held | noted
  · have before : Store.Keeps
        { assembly.store with warnings := assembly.store.warnings ++ components.warnings }
        name object := Or.inl held
    rcases before.record components.components with stillHeld | noted
    · exact Or.inl stillHeld
    · exact Or.inr (List.mem_append_right _ noted)
  · exact Or.inr (List.mem_append_left _ noted)

theorem absorb_keeps (assembly : Assembly) {components : Store} {name : String}
    {object : SchemaObject} (kept : components.Keeps name object) :
    (assembly.absorb components).Keeps name object := by
  rcases kept with held | noted
  · have recorded := Store.record_keeps
      { assembly.store with warnings := assembly.store.warnings ++ components.warnings }
      (Entries.mem_of_get?_eq_some held)
    rcases recorded with stillHeld | noted
    · exact Or.inl stillHeld
    · exact Or.inr (List.mem_append_right _ noted)
  · have before : Warning.componentCollision name ∈
        assembly.store.warnings ++ components.warnings := List.mem_append_right _ noted
    exact Or.inr (List.mem_append_right _ (Store.warnings_subset_record _ _ before))

end Assembly

namespace Contribution

/-- What was built is kept among the components that are not passed over,
unless the route has stored the same before. -/
theorem unrepeated_keeps {contribution : Contribution} {built : Store} {name : String}
    {object : SchemaObject} (kept : built.Keeps name object) :
    (contribution.unrepeated built).Keeps name object ∨
      ∃ known, contribution.get? name = some known ∧ known.same object = true := by
  rcases kept with held | noted
  · cases repeated : contribution.repeats name object with
    | true =>
      unfold repeats at repeated
      split at repeated
      · next known found => exact Or.inr ⟨known, found, repeated⟩
      · cases repeated
    | false =>
      left
      left
      exact Entries.get?_filter_of_get? held (by simp only [repeated, Bool.not_false])
  · exact Or.inl (Or.inr noted)

end Contribution

/-- The contribution of a run to the route of a context: each of its entries
was registered for some method of the route, and whatever was registered for
that method is kept. -/
def Progress.Remembers (progress : Progress) (context : OperationContext) : Prop :=
  ∀ name known, progress.contribution.get? name = some known →
    ∃ method, (name, known) ∈ (context.forMethod method).registrations ∧
      progress.assembly.KeepsAll (context.forMethod method).registrations

namespace Claim

variable {claim : Claim} {earlier later : Progress}

theorem Step.keeps (step : claim.Step earlier later) {name : String} {object : SchemaObject}
    (kept : earlier.assembly.Keeps name object) : later.assembly.Keeps name object := by
  cases step with
  | share existing server found shared => exact kept
  | drop existing found refused =>
    rcases kept with held | noted
    · exact Or.inl held
    · exact Or.inr (List.mem_append_left _ noted)
  | accept operation built free succeeded => exact kept.absorb _

theorem run_keeps (claims : List Claim) {before : Progress} {name : String}
    {object : SchemaObject} (kept : before.assembly.Keeps name object) :
    (run claims before).1.assembly.Keeps name object :=
  @run_invariant (fun reached => reached.assembly.Keeps name object) claims before kept
    fun _ _ _ _ step => step.keeps

/-- Everything that an accepted claim has registered is kept.  An object that
is passed over compares as the same with one of an earlier method, so either
both are identical, or one of the two methods has registered both. -/
theorem accept_keepsAll (documented : claim.context.route.isDocumented = true)
    {contribution : Contribution} {assembly : Assembly}
    (remembers : Progress.Remembers { contribution, assembly } claim.context)
    {operation : Operation} {built : Store}
    (succeeded : claim.context.build = .ok (operation, built)) :
    (assembly.absorb (contribution.unrepeated built)).KeepsAll claim.context.registrations := by
  obtain ⟨_, _, _, rfl⟩ := OperationContext.build_eq_ok succeeded
  rintro ⟨name, object⟩ registered
  have keptObject := Store.record_keeps {} registered
  rcases Contribution.unrepeated_keeps keptObject with fresh | ⟨known, found, same⟩
  · exact assembly.absorb_keeps fresh
  obtain ⟨method, ofMethod, keptBefore⟩ := remembers name known found
  have agree := (claim.context.forMethod method).registrations_agree documented ofMethod registered
    same
  rcases agree with equal | bothHere | bothThere
  · exact (equal ▸ keptBefore (name, known) ofMethod).absorb _
  · have keptKnown := Store.record_keeps {} bothHere
    rcases keptKnown.eq_or_collision keptObject with equal | noted
    · exact (equal ▸ keptBefore (name, known) ofMethod).absorb _
    · exact assembly.absorb_keeps (Or.inr noted)
  · exact (keptBefore (name, object) bothThere).absorb _

theorem Step.remembers (step : claim.Step earlier later)
    (documented : claim.context.route.isDocumented = true)
    (remembers : Progress.Remembers { earlier with contribution := claim.contributed earlier }
      claim.context) : later.Remembers claim.context := by
  have still : ∀ name known, (claim.contributed earlier).get? name = some known →
      ∃ method, (name, known) ∈ (claim.context.forMethod method).registrations ∧
        later.assembly.KeepsAll (claim.context.forMethod method).registrations := by
    intro name known found
    obtain ⟨method, ofMethod, kept⟩ := remembers name known found
    exact ⟨method, ofMethod, fun entry registered => step.keeps (kept entry registered)⟩
  cases step with
  | share existing server found shared => exact still
  | drop existing found refused => exact still
  | accept operation built free succeeded =>
    intro name known found
    rcases Entries.mem_or_get?_of_get?_overlay found with fresh | before
    · have registered : (name, known) ∈ claim.context.registrations :=
        OperationContext.mem_registrations_of_build succeeded (List.mem_filter.mp fresh).1
      exact ⟨claim.context.method, registered, accept_keepsAll documented remembers succeeded⟩
    · exact still name known before

theorem remembers_of_contributed_nil {claim : Claim} {reached : Progress}
    (none : claim.contributed reached = []) :
    Progress.Remembers { reached with contribution := claim.contributed reached }
      claim.context := by
  intro name known found
  rw [none] at found
  cases found

/-- Whatever claim comes next, it begins a route, or what has been stored is a
contribution to its route. -/
theorem remembers_contributed {claims : List Claim} (chain : claims.IsChain Continues)
    (documented : ∀ claim ∈ claims, claim.context.route.isDocumented = true) {begun : Assembly}
    {reached : Progress} (through : run claims (.start begun) = (reached, none)) :
    ∀ upcoming : Claim, (∀ last ∈ claims.getLast?, last.Continues upcoming) →
      Progress.Remembers { reached with contribution := upcoming.contributed reached }
        upcoming.context := by
  apply @run_history (fun done progress => ∀ upcoming : Claim,
    (∀ last ∈ done.getLast?, last.Continues upcoming) →
      Progress.Remembers { progress with contribution := upcoming.contributed progress }
        upcoming.context) claims _ reached through
  · intro upcoming _
    apply remembers_of_contributed_nil
    unfold contributed
    split <;> rfl
  · intro done claim prior earlier later step remembers upcoming continues
    have latest : claim ∈ (done ++ [claim]).getLast? := by simp
    have known : later.Remembers claim.context := by
      apply step.remembers (documented claim (prior.subset (by simp)))
      apply remembers
      intro last member
      have chainSoFar := List.IsChain.prefix chain prior
      exact (List.isChain_append.mp chainSoFar).2.2 last member claim rfl
    rcases continues claim latest with opening | same
    · apply remembers_of_contributed_nil
      simp only [contributed, opening, if_true]
    · cases opening : upcoming.opening with
      | true =>
        apply remembers_of_contributed_nil
        simp only [contributed, opening, if_true]
      | false =>
        rw [same]
        simp only [contributed, opening, Bool.false_eq_true, if_false]
        exact known

/-- The run over the claims gets to this one, finds no operation in its place,
and builds one. -/
def AcceptedAmong (claim : Claim) (claims : List Claim) (begun : Assembly) : Prop :=
  ∃ earlier later reached operation built, claims = earlier ++ claim :: later ∧
    run earlier (.start begun) = (reached, none) ∧
    reached.assembly.find? claim.context.fullPath claim.context.method = none ∧
    claim.context.build = .ok (operation, built)

theorem run_keepsAll {claims : List Claim} (chain : claims.IsChain Continues)
    (documented : ∀ claim ∈ claims, claim.context.route.isDocumented = true) {begun : Assembly}
    {claim : Claim} (accepted : claim.AcceptedAmong claims begun) :
    (run claims (.start begun)).1.assembly.KeepsAll claim.context.registrations := by
  obtain ⟨earlier, later, reached, operation, built, rfl, through, free, succeeded⟩ := accepted
  obtain ⟨chainEarlier, -, linked⟩ := List.isChain_append.mp chain
  have remembers : Progress.Remembers
      { reached with contribution := claim.contributed reached } claim.context := by
    apply remembers_contributed chainEarlier
      (fun other member => documented other (List.mem_append_left _ member)) through
    intro last member
    exact linked last member claim rfl
  have kept := accept_keepsAll
    (documented claim (List.mem_append_right _ List.mem_cons_self)) remembers succeeded
  rw [run_append_of_reached through, run_cons_of_advance (advance_of_free free succeeded)]
  intro entry registered
  exact run_keeps later (kept entry registered)

end Claim

namespace Generator

/-- A generator holds exactly this object under the name, or its last
generation has noted a collision for the name. -/
def Keeps (generator : Generator) (name : String) (object : SchemaObject) : Prop :=
  generator.store.get? name = some object ∨ .componentCollision name ∈ generator.warnings

/-- Every call that gets to its routes, whether or not it fails there, keeps
each component of the store that it began with, and everything that was
registered for an accepted claim. -/
theorem generate_keeps (generator : Generator) {versionText : String} {version : Version}
    (routes : List Route) {begun : Assembly}
    (supported : Version.ofText? versionText = some version)
    (started : generator.beginning = .ok begun) :
    (∀ name object, begun.store.get? name = some object →
      (generator.generate versionText routes).2.Keeps name object) ∧
    ∀ claim : Claim, claim.AcceptedAmong (generator.claims routes) begun →
      ∀ entry ∈ claim.context.registrations,
        (generator.generate versionText routes).2.Keeps entry.1 entry.2 := by
  rw [generate_snd supported started]
  constructor
  · intro name object held
    have kept : (Progress.start begun).assembly.Keeps name object := Or.inl held
    exact Claim.run_keeps (generator.claims routes) kept
  · intro claim accepted entry registered
    have chain := generator.workshop.claims_isChain (Route.inPathOrder routes)
    have documented : ∀ other ∈ generator.claims routes,
        other.context.route.isDocumented = true := fun other member =>
      generator.workshop.isDocumented_of_mem_claims member
    exact Claim.run_keepsAll chain documented accepted entry registered

/-- The component of a route with one field is kept. -/
theorem generate_keeps_posting :
    ((unused {} []).generate "3.0" [.posting "a" .text "s1"]).2.Keeps "a"
      ((Fragment.object [("name", .requiredOf .string)] {}).lifted "a") := by
  have built := OperationContext.build_posting "a" (MapperTable.convertFields_text "name") "s1"
  have accepted : (Claim.posting "a" .text "s1").AcceptedAmong
      ((unused {} []).claims [.posting "a" .text "s1"]) {} :=
    ⟨[], [], .start {}, _, _, claims_posting [("a", .text, "s1")], rfl, rfl, built⟩
  have registered : ("a", (Fragment.object [("name", .requiredOf .string)] {}).lifted "a") ∈
      (OperationContext.posting "a" .text "s1").registrations := by
    have held : (({} : Store).record ((Schema.inline
        (Fragment.object [("name", .requiredOf .string)] {})).registrations "a")).get? "a" =
          some _ := Store.get?_record_object rfl {} "a" {}
    exact OperationContext.mem_registrations_of_build built (Entries.mem_of_get?_eq_some held)
  exact (generate_keeps (unused {} []) [.posting "a" .text "s1"]
    (by decide : Version.ofText? "3.0" = some .v30) rfl).2 (.posting "a" .text "s1") accepted
      ("a", _) registered

end Generator
end RouteDocs
