import RouteDocs.Proofs.Document.History
import RouteDocs.Proofs.Document.Unfiltered

namespace RouteDocs

/-!
# What happens during a call

The warnings that a call raises and the components that it registers are read off
its claims, not off what it leaves behind: `Claim.events` is what one claim does
to the two, and `Generator.during` collects it over all claims of a call up to
the first that fails.  What a generator has after a call for a supported version
is then what happened during it, whatever its outcome.  A call for an unknown
version ends before anything is cleared, so the generator still has what earlier
calls have left.
-/

/-- The warnings that were raised and the components that were registered, in order. -/
structure Events where
  raised : List Warning := []
  registered : Entries SchemaObject := []

namespace Events

def andThen (first second : Events) : Events where
  raised := first.raised ++ second.raised
  registered := first.registered ++ second.registered

end Events

namespace Claim

/-- What happens when a claim is made.  One that shares its server, or that fails,
raises and registers nothing. -/
def events (claim : Claim) (before : Progress) : Events :=
  match before.assembly.find? claim.context.fullPath claim.context.method with
  | some existing =>
    match Assembly.sharedServer? claim.context existing with
    | some _ => {}
    | none =>
      { raised := [.duplicateOperation claim.context.fullPath claim.context.method
          existing.claimedBy] }
  | none =>
    match claim.context.build with
    | .error _ => {}
    | .ok (_, built) =>
      { raised := built.warnings ++ (before.assembly.store.components.colliding
          ((claim.contributed before).unrepeated built).components).map
            fun entry => .componentCollision entry.1
        registered := ((claim.contributed before).unrepeated built).components }

/-- What happens while claims are made, up to the first that fails. -/
def runEvents (claims : List Claim) (before : Progress) : Events :=
  match claims with
  | [] => {}
  | claim :: rest =>
    match claim.advance before with
    | .ok after => (claim.events before).andThen (runEvents rest after)
    | .error _ => {}

end Claim

/-- A later assembly has, besides what the earlier one had, the warnings and the
components of the events between them. -/
structure Assembly.Follows (earlier later : Assembly) (events : Events) : Prop where
  warnings : later.warnings = earlier.warnings ++ events.raised
  components : later.store.components = earlier.store.components.overlay events.registered

namespace Assembly.Follows

variable {first second third : Assembly} {events more : Events}

theorem refl (assembly : Assembly) : assembly.Follows assembly {} where
  warnings := (List.append_nil _).symm
  components := rfl

theorem trans (before : first.Follows second events) (after : second.Follows third more) :
    first.Follows third (events.andThen more) where
  warnings := by
    rw [after.warnings, before.warnings, List.append_assoc]
    rfl
  components := by
    rw [after.components, before.components, ← Entries.overlay_append]
    rfl

end Assembly.Follows

namespace Claim

/-- A step does what the events of its claim say. -/
theorem Step.follows {claim : Claim} {earlier later : Progress} (step : claim.Step earlier later)
    (silent : earlier.assembly.store.Silent) :
    earlier.assembly.Follows later.assembly (claim.events earlier) := by
  cases step with
  | share existing server found shared =>
    simp only [events, found, shared]
    exact ⟨(List.append_nil _).symm, rfl⟩
  | drop existing found refused =>
    simp only [events, found, refused]
    exact ⟨rfl, rfl⟩
  | accept operation built free succeeded =>
    have waiting : earlier.assembly.store.warnings = [] := silent
    have kept : ((claim.contributed earlier).unrepeated built).warnings = built.warnings := rfl
    simp only [events, free, succeeded]
    refine ⟨?_, Assembly.components_absorb _ _⟩
    change (earlier.assembly.absorb _).warnings = _
    rw [Assembly.warnings_absorb, waiting, kept, List.nil_append, List.append_assoc]

/-- So does a run, also one that fails. -/
theorem run_follows (claims : List Claim) {before : Progress}
    (silent : before.assembly.store.Silent) :
    before.assembly.Follows (run claims before).1.assembly (runEvents claims before) := by
  induction claims generalizing before with
  | nil => exact .refl _
  | cons claim rest inductionHypothesis =>
    unfold run runEvents
    cases advanced : claim.advance before with
    | ok after =>
      have step := step_of_advance advanced
      exact (step.follows silent).trans (inductionHypothesis (step.silent silent))
    | error fault => exact .refl _

end Claim

namespace Generator

/-- What happens during a call: nothing for an unknown version, and nothing but the
warning about the base when the base cannot be read. -/
def during (generator : Generator) (versionText : String) (routes : List Route) : Events :=
  match Version.ofText? versionText with
  | none => {}
  | some _ =>
    match generator.beginning with
    | .error _ => { raised := baseWarnings generator.base }
    | .ok begun =>
      Events.andThen { raised := baseWarnings generator.base }
        (Claim.runEvents (generator.claims routes) (.start begun))

/-- The generator reports the warnings of some events and no others.  Where its
store is cleared for every call, it has the components of these events and no others. -/
structure Reports (generator : Generator) (events : Events) : Prop where
  warnings : generator.warnings = events.raised
  components : generator.settings.componentLifetime = .perCall →
    generator.store.components = Entries.ofPairs events.registered

theorem settings_generate (generator : Generator) (versionText : String) (routes : List Route) :
    (generator.generate versionText routes).2.settings = generator.settings := by
  rw [generate_snd_eq_run]

/-- A call for a supported version, whatever its outcome, leaves the warnings that were
raised during it, and lays the components that were registered over those it began with. -/
theorem generate_follows {generator : Generator} (silent : generator.store.Silent)
    {versionText : String} {version : Version}
    (supported : Version.ofText? versionText = some version) (routes : List Route) :
    (generator.generate versionText routes).2.warnings =
        (generator.during versionText routes).raised ∧
      (generator.generate versionText routes).2.store.components =
        generator.startingStore.components.overlay
          (generator.during versionText routes).registered := by
  cases started : generator.beginning with
  | error fault =>
    simp only [generate, supported, generateFor, assemble, during, started, Except.map,
      Entries.overlay_nil, and_self]
  | ok begun =>
    rcases beginning_eq_ok started with ⟨-, store, warnings⟩
    have silentStart : (Progress.start begun).assembly.store.Silent :=
      store ▸ @startingStore_invariant Store.Silent rfl generator silent
    have ran := Claim.run_follows (generator.claims routes) silentStart
    rw [generate_snd supported started]
    simp only [during, supported, started, Events.andThen, List.nil_append]
    exact ⟨warnings ▸ ran.warnings, store ▸ ran.components⟩

theorem reports_of_supported {generator : Generator} (silent : generator.store.Silent)
    {versionText : String} {version : Version}
    (supported : Version.ofText? versionText = some version) (routes : List Route) :
    (generator.generate versionText routes).2.Reports (generator.during versionText routes) := by
  rcases generate_follows silent supported routes with ⟨warnings, components⟩
  refine ⟨warnings, fun lifetime => ?_⟩
  rw [settings_generate] at lifetime
  have emptied : generator.startingStore = {} := by simp only [startingStore, lifetime]
  rw [components, emptied]
  rfl

/-- A call for an unknown version changes nothing, and nothing happens during it. -/
theorem reports_of_unsupported (generator : Generator) {versionText : String}
    (unsupported : Version.ofText? versionText = none) (routes : List Route) :
    (generator.generate versionText routes).2.Reports (generator.during versionText routes) ↔
      generator.Reports {} := by
  simp only [generate, during, unsupported]

/-- After any calls, and then one with any outcome, a generator reports what happened
during the last call exactly when the version of that call is supported, or when the
earlier calls have left nothing to report. -/
theorem reports_last_call_iff (generator : Generator) (calls : List Call) (versionText : String)
    (routes : List Route) :
    ((generator.fresh.performAll calls).generate versionText routes).2.Reports
        ((generator.fresh.performAll calls).during versionText routes) ↔
      (∃ version, Version.ofText? versionText = some version) ∨
        (generator.fresh.performAll calls).Reports {} := by
  have silent := silent_performAll_fresh generator calls
  cases supported : Version.ofText? versionText with
  | some version => simp only [reports_of_supported silent supported, Option.some.injEq,
      exists_eq', true_or]
  | none => simp only [reports_of_unsupported _ supported, reduceCtorEq, exists_false, false_or]

/-- A generator whose base names a version, after a call for a route with one field. -/
def posted : Generator :=
  (unused {} [("openapi", .text "3.0.0")]).performAll
    [.generate "3.0" [.posting "a" .text "s1"]]

theorem registrations_posted (action : String) (type : SchemaType) :
    (Schema.inline (Fragment.object [("name", .requiredOf type)] {})).registrations action =
      [(action, (Fragment.object [("name", .requiredOf type)] {}).lifted action)] := by
  have inside : (Fragment.object [("name", .requiredOf type)] {}).registrations action = [] := by
    rw [SchemaObject.registrations_of_properties rfl]
    change Schema.registrationsOf [(componentName action "name", .typed type)] = _
    rw [Schema.registrationsOf_cons, Schema.registrationsOf_nil, List.append_nil]
    exact Schema.registrations_typed _ _
  rw [Schema.registrations_inline, inside]
  rfl

theorem posted_leaves :
    posted.warnings = [.discardedBaseVersion "3.0.0"] ∧ posted.store.components.names = ["a"] := by
  let begun : Assembly := { warnings := [.discardedBaseVersion "3.0.0"] }
  have started : (unused {} [("openapi", .text "3.0.0")]).beginning = .ok begun := rfl
  have supported : Version.ofText? "3.0" = some .v30 := by decide
  have claims : (unused {} [("openapi", .text "3.0.0")]).claims [.posting "a" .text "s1"] =
      [.posting "a" .text "s1"] := claims_posting [("a", .text, "s1")]
  have free : (Progress.start begun).assembly.find?
      (Claim.posting "a" .text "s1").context.fullPath
      (Claim.posting "a" .text "s1").context.method = none := rfl
  have built := OperationContext.build_posting "a" (MapperTable.convertFields_text "name") "s1"
  have ran := Claim.run_cons_of_advance (Claim.advance_of_free free built) []
  have left : posted = ((unused {} [("openapi", .text "3.0.0")]).generate "3.0"
      [.posting "a" .text "s1"]).2 := rfl
  rw [left, generate_snd supported started, claims, ran, registrations_posted]
  exact ⟨rfl, rfl⟩

/-- When a version is refused, the generator still reports the call before. -/
theorem refused_version_reports_earlier_call :
    (posted.during "2.0" []).raised = [] ∧
      (posted.generate "2.0" []).2.warnings = [.discardedBaseVersion "3.0.0"] ∧
      (posted.generate "2.0" []).2.store.components.names = ["a"] ∧
      ¬(posted.generate "2.0" []).2.Reports (posted.during "2.0" []) := by
  have unsupported : Version.ofText? "2.0" = none := by decide
  have unchanged : (posted.generate "2.0" []).2 = posted := by simp only [generate, unsupported]
  have nothing : posted.during "2.0" [] = {} := by simp only [during, unsupported]
  rw [unchanged, nothing]
  refine ⟨rfl, posted_leaves.1, posted_leaves.2, fun reports => ?_⟩
  have silent : posted.warnings = [] := reports.warnings
  rw [posted_leaves.1] at silent
  cases silent

end Generator
end RouteDocs
