import RouteDocs.Proofs.Document.Account
import RouteDocs.Proofs.Document.TwoRuns
import RouteDocs.Proofs.Schema.Same

namespace RouteDocs

/-!
# What the filter of a route changes

A route passes over a component that it has contributed before, so that its
methods do not collide with each other.  This module sets a run without that
filter beside the run of the generator: every accepted operation hands over all
its components.

Both runs store the same names in the same order.  Under each name they hold
the same object, or objects that the filter takes for the same: it compares
them without regard to the order of properties, so of two such objects the
earlier one stays.  The warnings are those of the run without the filter, less
the collisions with what the route itself has contributed.
-/

/-! ## Objects that are taken for the same -/

/-- The first object can stand for the second: it is the same one, or the
comparison of objects does not tell them apart. -/
def SchemaObject.StandsFor (kept last : SchemaObject) : Prop :=
  kept = last ∨ kept.same last = true

/-- The same names in the same order, with objects that stand for each other. -/
def Entries.StandFor (kept last : Entries SchemaObject) : Prop :=
  List.Forall₂ (fun entry other => entry.1 = other.1 ∧ entry.2.StandsFor other.2) kept last

namespace Entries

variable {kept last : Entries SchemaObject}

theorem StandFor.refl (entries : Entries SchemaObject) : entries.StandFor entries := by
  induction entries with
  | nil => exact .nil
  | cons entry rest inductionHypothesis => exact .cons ⟨rfl, Or.inl rfl⟩ inductionHypothesis

theorem StandFor.names_eq (stand : kept.StandFor last) : kept.names = last.names := by
  induction stand with
  | nil => rfl
  | cons first _ inductionHypothesis => rw [names_cons, names_cons, first.1, inductionHypothesis]

theorem StandFor.has_eq (stand : kept.StandFor last) (name : String) :
    kept.has name = last.has name := by
  rw [Bool.eq_iff_iff, has_eq_true_iff, has_eq_true_iff, stand.names_eq]

/-- The same object stored on both sides. -/
theorem StandFor.put (stand : kept.StandFor last) (name : String) (object : SchemaObject) :
    (kept.put name object).StandFor (last.put name object) := by
  induction stand with
  | nil => exact .refl [(name, object)]
  | @cons entry other rest others first tail inductionHypothesis =>
    rcases entry with ⟨key, kept⟩
    rcases other with ⟨otherKey, last⟩
    obtain ⟨rfl, stands⟩ := first
    unfold Entries.put
    split
    · exact .cons ⟨rfl, Or.inl rfl⟩ tail
    · exact .cons ⟨rfl, stands⟩ inductionHypothesis

/-- An object that is stored on one side only, where the other side has one
that is taken for the same. -/
theorem StandFor.put_last (stand : kept.StandFor last) {name : String}
    {known object : SchemaObject} (found : kept.get? name = some known)
    (same : known.same object = true) : kept.StandFor (last.put name object) := by
  induction stand with
  | nil => cases found
  | @cons entry other rest others first tail inductionHypothesis =>
    rcases entry with ⟨key, kept⟩
    rcases other with ⟨otherKey, last⟩
    obtain ⟨rfl, stands⟩ := first
    unfold get? at found
    unfold Entries.put
    split at found
    · next here =>
      cases found
      rw [if_pos here]
      exact .cons ⟨rfl, Or.inr same⟩ tail
    · next elsewhere =>
      rw [if_neg elsewhere]
      exact .cons ⟨rfl, stands⟩ (inductionHypothesis found)

end Entries

/-! ## One absorption with and without the filter -/

namespace Contribution

/-- Whether the filter lets a component through. -/
def passes (contribution : Contribution) (entry : String × SchemaObject) : Bool :=
  !contribution.repeats entry.1 entry.2

theorem components_unrepeated (contribution : Contribution) (built : Store) :
    (contribution.unrepeated built).components = built.components.filter contribution.passes := rfl

theorem get?_of_repeats {contribution : Contribution} {name : String} {object : SchemaObject}
    (repeated : contribution.repeats name object = true) :
    ∃ known, contribution.get? name = some known ∧ known.same object = true := by
  unfold repeats at repeated
  split at repeated
  · next known found => exact ⟨known, found, repeated⟩
  · cases repeated

/-- As long as the contribution of a route is what the store holds, the
components that the filter passes over change nothing but the order inside
objects, and all their collisions are with the contribution. -/
theorem overlay_passing {contribution : Contribution} {kept last built : Entries SchemaObject}
    (stand : kept.StandFor last) (distinct : built.names.Nodup)
    (held : ∀ name ∈ built.names, ∀ known, contribution.get? name = some known →
      kept.get? name = some known) :
    (kept.overlay (built.filter contribution.passes)).StandFor (last.overlay built) ∧
      kept.colliding (built.filter contribution.passes) =
        (last.colliding built).filter contribution.passes := by
  induction built generalizing kept last with
  | nil => exact ⟨stand, rfl⟩
  | cons entry rest inductionHypothesis =>
    rcases entry with ⟨name, object⟩
    obtain ⟨fresh, distinctRest⟩ := List.nodup_cons.mp distinct
    cases repeated : contribution.repeats name object with
    | true =>
      obtain ⟨known, found, same⟩ := get?_of_repeats repeated
      have present := held name List.mem_cons_self known found
      have stopped : contribution.passes (name, object) = false := by
        simp only [passes, repeated, Bool.not_true]
      have taken : last.has name = true := by
        rw [← stand.has_eq, Entries.has_eq_true_iff, Entries.mem_names_iff]
        exact ⟨known, present⟩
      obtain ⟨standRest, collidingRest⟩ := inductionHypothesis (stand.put_last present same)
        distinctRest fun other member => held other (List.mem_cons_of_mem name member)
      have filtered : ((name, object) :: rest).filter contribution.passes =
          rest.filter contribution.passes :=
        List.filter_cons_of_neg (by rw [stopped]; exact Bool.false_ne_true)
      rw [filtered, Entries.overlay_cons, Entries.colliding, if_pos taken]
      refine ⟨standRest, collidingRest.trans ?_⟩
      exact (List.filter_cons_of_neg (by rw [stopped]; exact Bool.false_ne_true)).symm
    | false =>
      have passed : contribution.passes (name, object) = true := by
        simp only [passes, repeated, Bool.not_false]
      have heldRest : ∀ other ∈ Entries.names rest, ∀ known, contribution.get? other = some known →
          (kept.put name object).get? other = some known := by
        intro other member known found
        have different : other ≠ name := fun same => fresh (same ▸ member)
        rw [Entries.get?_put_of_ne kept object different]
        exact held other (List.mem_cons_of_mem name member) known found
      obtain ⟨standRest, collidingRest⟩ :=
        inductionHypothesis (stand.put name object) distinctRest heldRest
      rw [List.filter_cons_of_pos passed, Entries.overlay_cons, Entries.overlay_cons,
        Entries.colliding, Entries.colliding]
      refine ⟨standRest, ?_⟩
      simp only [stand.has_eq, collidingRest]
      split
      · rw [List.filter_cons_of_pos passed]
      · rfl

/-- After a claim the route has contributed what the store holds. -/
theorem held_overlay {contribution : Contribution} {kept passed : Entries SchemaObject}
    (distinct : passed.names.Nodup)
    (held : ∀ name known, contribution.get? name = some known → kept.get? name = some known)
    {name : String} {known : SchemaObject}
    (found : (contribution.overlay passed).get? name = some known) :
    (kept.overlay passed).get? name = some known := by
  rw [Entries.get?_overlay _ distinct] at found ⊢
  cases above : passed.get? name with
  | some object =>
    rw [above] at found
    exact found
  | none =>
    rw [above, Option.none_or] at found
    exact held name known found

end Contribution

/-! ## A run without the filter -/

/-- A warning of a run without the filter. -/
structure Noted where
  warning : Warning
  /-- It is a collision with what the route itself has contributed before. -/
  repetition : Bool

namespace Noted

def plain (warning : Warning) : Noted where
  warning := warning
  repetition := false

/-- The collision of a component of a route that has contributed before. -/
def collision (contribution : Contribution) (entry : String × SchemaObject) : Noted where
  warning := .componentCollision entry.1
  repetition := contribution.repeats entry.1 entry.2

/-- The warnings that are no repetitions. -/
def withoutRepetitions (noted : List Noted) : List Warning :=
  (noted.filter fun note => !note.repetition).map Noted.warning

theorem withoutRepetitions_append (first second : List Noted) :
    withoutRepetitions (first ++ second) =
      withoutRepetitions first ++ withoutRepetitions second := by
  simp only [withoutRepetitions, List.filter_append, List.map_append]

theorem withoutRepetitions_plain (warnings : List Warning) :
    withoutRepetitions (warnings.map plain) = warnings := by
  simp [withoutRepetitions, plain, List.filter_map, Function.comp_def]

theorem withoutRepetitions_collisions (contribution : Contribution) (entries : Registrations) :
    withoutRepetitions (entries.map (collision contribution)) =
      (entries.filter contribution.passes).map fun entry => .componentCollision entry.1 := by
  simp only [withoutRepetitions, List.filter_map, List.map_map]
  rfl

end Noted

/-- What a run without the filter has reached between two claims. -/
structure Unfiltered where
  /-- What the route of the last claim has contributed.  An object that is taken
  for the one contributed before is no new contribution. -/
  contribution : Contribution
  assembly : Assembly
  /-- All components of the operations accepted so far, operation by operation. -/
  staged : List (Entries SchemaObject)
  /-- The warnings so far, and which of them are repetitions. -/
  noted : List Noted

namespace Unfiltered

def start (begun : Assembly) : Unfiltered where
  contribution := []
  assembly := begun
  staged := []
  noted := begun.warnings.map .plain

def contributed (before : Unfiltered) (claim : Claim) : Contribution :=
  if claim.opening then [] else before.contribution

/-- Make a claim.  An accepted operation hands over all its components. -/
def advance (claim : Claim) (before : Unfiltered) : Except Fault Unfiltered :=
  match before.assembly.find? claim.context.fullPath claim.context.method with
  | some existing =>
    match Assembly.sharedServer? claim.context existing with
    | some server =>
      .ok
        { before with
          contribution := before.contributed claim
          assembly := before.assembly.share claim.context.fullPath claim.context.method server }
    | none =>
      .ok
        { before with
          contribution := before.contributed claim
          assembly := before.assembly.drop claim.context.fullPath claim.context.method
            existing.claimedBy
          noted := before.noted ++ [.plain (.duplicateOperation claim.context.fullPath
            claim.context.method existing.claimedBy)] }
  | none =>
    match claim.context.build with
    | .error fault => .error fault
    | .ok (operation, built) =>
      .ok
        { contribution := (before.contributed claim).overlay
            ((before.contributed claim).unrepeated built).components
          assembly := (before.assembly.absorb built).accept claim.context operation
          staged := before.staged ++ [built.components]
          noted := before.noted ++
            (before.assembly.store.warnings ++ built.warnings).map .plain ++
            (before.assembly.store.components.colliding built.components).map
              (.collision (before.contributed claim)) }

end Unfiltered

theorem OperationContext.nodup_names_build {context : OperationContext} {operation : Operation}
    {built : Store} (succeeded : context.build = .ok (operation, built)) :
    built.components.names.Nodup := by
  obtain ⟨_, _, _, rfl⟩ := build_eq_ok succeeded
  rw [Store.components_record]
  exact Entries.nodup_names_ofPairs context.registrations

namespace Unfiltered

/-- What a run without the filter stores and notes: the components of the
accepted operations one after the other, over those it began with. -/
structure Tells (whole : Unfiltered) (begun : Assembly) : Prop where
  components : whole.assembly.store.components =
    whole.staged.foldl Entries.overlay begun.store.components
  distinct : ∀ entries ∈ whole.staged, entries.names.Nodup
  warnings : whole.assembly.warnings = whole.noted.map Noted.warning
  repetitions : ∀ note ∈ whole.noted, note.repetition = true →
    ∃ name, note.warning = .componentCollision name

variable {begun : Assembly}

theorem tells_start (begun : Assembly) : (start begun).Tells begun where
  components := rfl
  distinct := fun _ member => absurd member List.not_mem_nil
  warnings := by simp [start, Noted.plain, Function.comp_def]
  repetitions := by
    intro note member repeated
    obtain ⟨warning, -, rfl⟩ := List.mem_map.mp member
    cases repeated

theorem tells_advance (claim : Claim) (before after : Unfiltered)
    (advanced : advance claim before = .ok after) (tells : before.Tells begun) :
    after.Tells begun := by
  unfold advance at advanced
  split at advanced
  · split at advanced
    · cases advanced
      exact ⟨tells.components, tells.distinct, tells.warnings, tells.repetitions⟩
    · cases advanced
      refine ⟨tells.components, tells.distinct, ?_, ?_⟩
      · simp [Assembly.drop, tells.warnings, Noted.plain]
      · intro note member repeated
        rcases List.mem_append.mp member with earlier | last
        · exact tells.repetitions note earlier repeated
        · rw [List.mem_singleton.mp last] at repeated
          cases repeated
  · split at advanced
    · cases advanced
    · next operation built succeeded =>
      cases advanced
      refine ⟨?_, ?_, ?_, ?_⟩
      · change (before.assembly.absorb built).store.components = _
        rw [Assembly.components_absorb, tells.components, List.foldl_append]
        rfl
      · intro entries member
        rcases List.mem_append.mp member with earlier | last
        · exact tells.distinct entries earlier
        · rw [List.mem_singleton.mp last]
          exact OperationContext.nodup_names_build succeeded
      · change (before.assembly.absorb built).warnings = _
        rw [Assembly.warnings_absorb, tells.warnings]
        simp [Noted.plain, Noted.collision, Function.comp_def]
      · intro note member repeated
        rcases List.mem_append.mp member with others | collision
        · rcases List.mem_append.mp others with earlier | plain
          · exact tells.repetitions note earlier repeated
          · obtain ⟨warning, -, rfl⟩ := List.mem_map.mp plain
            cases repeated
        · obtain ⟨entry, -, rfl⟩ := List.mem_map.mp collision
          exact ⟨entry.1, rfl⟩

end Unfiltered

/-! ## Both runs side by side -/

/-- How a run of the generator stands beside the run without the filter. -/
structure Progress.Filters (kept : Progress) (whole : Unfiltered) : Prop where
  contribution : kept.contribution = whole.contribution
  /-- What a route has contributed is what the store holds. -/
  held : ∀ name known, kept.contribution.get? name = some known →
    kept.assembly.store.components.get? name = some known
  tags : kept.assembly.tags = whole.assembly.tags
  servers : kept.assembly.servers = whole.assembly.servers
  documented : kept.assembly.documented = whole.assembly.documented
  components : kept.assembly.store.components.StandFor whole.assembly.store.components
  pending : kept.assembly.store.warnings = whole.assembly.store.warnings
  warnings : kept.assembly.warnings = Noted.withoutRepetitions whole.noted

theorem Progress.filters_start (begun : Assembly) :
    (Progress.start begun).Filters (Unfiltered.start begun) where
  contribution := rfl
  held := by
    intro name known found
    cases found
  tags := rfl
  servers := rfl
  documented := rfl
  components := .refl _
  pending := rfl
  warnings := (Noted.withoutRepetitions_plain begun.warnings).symm

namespace Claim

variable {kept : Progress} {whole : Unfiltered}

theorem held_contributed (claim : Claim) (filters : kept.Filters whole) {name : String}
    {known : SchemaObject} (found : (claim.contributed kept).get? name = some known) :
    kept.assembly.store.components.get? name = some known := by
  unfold contributed at found
  split at found
  · cases found
  · exact filters.held name known found

/-- Accepting an operation with and without the filter. -/
theorem accept_filters (claim : Claim) (filters : kept.Filters whole) (operation : Operation)
    {built : Store} (distinct : built.components.names.Nodup) :
    Progress.Filters
      { contribution := (claim.contributed kept).overlay
          ((claim.contributed kept).unrepeated built).components
        assembly := (kept.assembly.absorb ((claim.contributed kept).unrepeated built)).accept
          claim.context operation }
      { contribution := (claim.contributed kept).overlay
          ((claim.contributed kept).unrepeated built).components
        assembly := (whole.assembly.absorb built).accept claim.context operation
        staged := whole.staged ++ [built.components]
        noted := whole.noted ++
          (whole.assembly.store.warnings ++ built.warnings).map .plain ++
          (whole.assembly.store.components.colliding built.components).map
            (.collision (claim.contributed kept)) } := by
  obtain ⟨stand, colliding⟩ := Contribution.overlay_passing filters.components distinct
    fun name _ known found => claim.held_contributed filters found
  have passed : ((claim.contributed kept).unrepeated built).components.names.Nodup :=
    Entries.nodup_names_filter distinct _
  exact
    { contribution := rfl
      held := by
        intro name known found
        change (kept.assembly.absorb _).store.components.get? name = some known
        rw [Assembly.components_absorb]
        exact Contribution.held_overlay passed
          (fun other known found => claim.held_contributed filters found) found
      tags := by simp only [Assembly.accept, Assembly.absorb, filters.tags]
      servers := by simp only [Assembly.accept, Assembly.absorb, filters.servers]
      documented := by simp only [Assembly.accept, Assembly.absorb, filters.documented]
      components := by
        change ((kept.assembly.absorb _).store.components).StandFor
          (whole.assembly.absorb built).store.components
        rw [Assembly.components_absorb, Assembly.components_absorb]
        exact stand
      pending := rfl
      warnings := by
        change (kept.assembly.absorb _).warnings = _
        rw [Assembly.warnings_absorb, Contribution.components_unrepeated, colliding,
          Noted.withoutRepetitions_append, Noted.withoutRepetitions_append,
          Noted.withoutRepetitions_plain, Noted.withoutRepetitions_collisions, ← filters.warnings,
          ← filters.pending]
        rfl }

theorem advance_filters (claim : Claim) (filters : kept.Filters whole) :
    Agree Progress.Filters (claim.advance kept) (whole.advance claim) := by
  have sameFind : whole.assembly.find? claim.context.fullPath claim.context.method =
      kept.assembly.find? claim.context.fullPath claim.context.method := by
    simp only [Assembly.find?, filters.documented]
  have sameContributed : whole.contributed claim = claim.contributed kept := by
    simp only [Unfiltered.contributed, contributed, filters.contribution]
  cases found : kept.assembly.find? claim.context.fullPath claim.context.method with
  | some existing =>
    rw [advance_of_found found]
    simp only [Unfiltered.advance, sameFind, found, sameContributed]
    cases Assembly.sharedServer? claim.context existing with
    | some server =>
      exact
        { filters with
          contribution := rfl
          held := fun _ _ found => claim.held_contributed filters found
          servers := by simp only [Assembly.share, filters.servers]
          documented := by simp only [Assembly.share, filters.documented] }
    | none =>
      exact
        { filters with
          contribution := rfl
          held := fun _ _ found => claim.held_contributed filters found
          warnings := by
            simp only [Assembly.drop, Noted.withoutRepetitions_append, filters.warnings]
            rfl }
  | none =>
    simp only [Unfiltered.advance, sameFind, found, sameContributed]
    cases built : claim.context.build with
    | error fault =>
      simp only [advance, OperationContext.claim, found, built]
      exact rfl
    | ok made =>
      rw [advance_of_free found built]
      exact claim.accept_filters filters made.1 (OperationContext.nodup_names_build built)

/-- Both runs fail for the same reason, or both get through. -/
theorem run_filters (claims : List Claim) (filters : kept.Filters whole) :
    (run claims kept).1.Filters (runWith Unfiltered.advance claims whole).1 ∧
      (run claims kept).2 = (runWith Unfiltered.advance claims whole).2 := by
  rw [run_eq_runWith]
  exact runWith_related (fun claim _ _ held => claim.advance_filters held) claims filters

end Claim

namespace Generator

/-! ## Calls with and without the filter -/

/-- What a call has before its first claim. -/
def beforeClaims (generator : Generator) (versionText : String) : Assembly :=
  match Version.ofText? versionText with
  | none => { store := generator.store, warnings := generator.warnings }
  | some _ =>
    match generator.beginning with
    | .ok begun => begun
    | .error _ => { store := generator.startingStore, warnings := baseWarnings generator.base }

/-- The claims of a call.  It makes none for an unknown version, or when the
base cannot be read. -/
def claimsMade (generator : Generator) (versionText : String) (routes : List Route) : List Claim :=
  match Version.ofText? versionText with
  | none => []
  | some _ =>
    match generator.beginning with
    | .ok _ => generator.claims routes
    | .error _ => []

/-- A call whose operations hand over all their components. -/
def unfiltered (generator : Generator) (versionText : String) (routes : List Route) :
    Unfiltered :=
  (Claim.runWith Unfiltered.advance (generator.claimsMade versionText routes)
    (.start (generator.beforeClaims versionText))).1

variable (generator : Generator) (versionText : String) (routes : List Route)

/-- Every call leaves behind what the run over its claims has assembled. -/
theorem generate_snd_eq_run :
    (generator.generate versionText routes).2 =
      { generator with
        store := (Claim.run (generator.claimsMade versionText routes)
          (.start (generator.beforeClaims versionText))).1.assembly.store
        warnings := (Claim.run (generator.claimsMade versionText routes)
          (.start (generator.beforeClaims versionText))).1.assembly.warnings } := by
  cases supported : Version.ofText? versionText with
  | none => simp only [generate, claimsMade, beforeClaims, supported, Claim.run, Progress.start]
  | some version =>
    cases started : generator.beginning with
    | error fault =>
      simp only [generate, generateFor, assemble_eq_run, claimsMade, beforeClaims, supported,
        started, Except.map, Claim.run, Progress.start]
    | ok begun =>
      rw [generate_snd supported started]
      simp only [claimsMade, beforeClaims, supported, started]

end Generator

/-- How what a call leaves behind stands beside the call without the filter.
Both begin with the same assembly. -/
structure Unfiltered.Accounts (whole : Unfiltered) (begun : Assembly) (used : Generator) :
    Prop where
  /-- Without the filter every accepted operation hands over all its components in turn. -/
  absorbed : whole.assembly.store.components =
    whole.staged.foldl Entries.overlay begun.store.components
  lastWins : ∀ name, whole.assembly.store.get? name =
    (whole.staged.reverse.findSome? fun entries => entries.get? name).or (begun.store.get? name)
  components : used.store.components.StandFor whole.assembly.store.components
  noted : whole.assembly.warnings = whole.noted.map Noted.warning
  repetitions : ∀ note ∈ whole.noted, note.repetition = true →
    ∃ name, note.warning = .componentCollision name
  warnings : used.warnings = Noted.withoutRepetitions whole.noted

namespace Generator

/-- The filter changes warnings and, up to what its comparison tells apart,
nothing else: the document is that of the call without the filter around the
components that stayed. -/
theorem generate_beside_unfiltered (generator : Generator) (versionText : String)
    (routes : List Route) :
    (generator.unfiltered versionText routes).Accounts (generator.beforeClaims versionText)
        (generator.generate versionText routes).2 ∧
      ∀ document, (generator.generate versionText routes).1 = .ok document →
        ∃ version, Version.ofText? versionText = some version ∧
          document = Document.render version versionText (baseRest generator.base)
            { (generator.unfiltered versionText routes).assembly with
              store := (generator.generate versionText routes).2.store } := by
  have tells : (generator.unfiltered versionText routes).Tells
      (generator.beforeClaims versionText) :=
    Claim.runWith_invariant Unfiltered.tells_advance _ (Unfiltered.tells_start _)
  obtain ⟨filters, -⟩ := Claim.run_filters (generator.claimsMade versionText routes)
    (Progress.filters_start (generator.beforeClaims versionText))
  rw [generate_snd_eq_run]
  refine ⟨?_, ?_⟩
  · exact
      { absorbed := tells.components
        lastWins := by
          intro name
          rw [Store.get?, tells.components]
          exact Entries.get?_foldl_overlay tells.distinct _ name
        components := filters.components
        noted := tells.warnings
        repetitions := tells.repetitions
        warnings := filters.warnings }
  · intro document succeeded
    obtain ⟨version, begun, reached, supported, started, through, rfl, -⟩ :=
      generate_eq_ok succeeded
    refine ⟨version, supported, ?_⟩
    have before : generator.beforeClaims versionText = begun := by
      simp only [beforeClaims, supported, started]
    have made : generator.claimsMade versionText routes = generator.claims routes := by
      simp only [claimsMade, supported, started]
    have tags := filters.tags
    have servers := filters.servers
    have documented := filters.documented
    simp only [before, made, through] at tags servers documented
    simp only [Document.render, before, made, through, unfiltered, tags, servers, documented]

end Generator

end RouteDocs
