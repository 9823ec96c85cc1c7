import RouteDocs.Proofs.Document.Fields
import RouteDocs.Proofs.Document.TwoRuns

namespace RouteDocs

/-!
# What earlier generations change

A generation writes to its store and never reads it: operations are built in
stores of their own.  So a run that begins with components from earlier calls
makes the same claims with the same outcome as a run from the empty store.  The
only traces of the earlier calls are their components, with those of the run
laid over them, and one more collision for every name that both have.
-/

/-- One collision for every name of the upper entries that the lower ones have. -/
def Entries.commonCollisions (lower higher : Entries SchemaObject) : List Warning :=
  (higher.names.filter fun name => lower.names.contains name).map .componentCollision

/-! ## Two stores, one of them over earlier components -/

/-- What a store holds and has noted when it began with the lower entries,
against the same store when it began empty. -/
structure Store.Over (lower : Entries SchemaObject) (fresh used : Store) : Prop where
  components : used.components = lower.overlay fresh.components
  distinct : fresh.names.Nodup
  noted : fresh.warnings.Sublist used.warnings
  counted : used.warnings.Perm (fresh.warnings ++ lower.commonCollisions fresh.components)

namespace Store.Over

variable {lower : Entries SchemaObject} {fresh used : Store}

theorem has_eq (laid : Over lower fresh used) (name : String) :
    used.components.has name = (lower.has name || fresh.components.has name) := by
  rw [Bool.eq_iff_iff, Bool.or_eq_true, Entries.has_eq_true_iff, Entries.has_eq_true_iff,
    Entries.has_eq_true_iff, laid.components, Entries.names_overlay lower laid.distinct,
    List.mem_append, List.mem_filter]
  by_cases present : name ∈ lower.names <;> simp [present]

/-- A present name notes a collision on both sides; a new one notes it only
where the lower entries have it, and is common from then on. -/
theorem insert (laid : Over lower fresh used) (name : String) (object : SchemaObject) :
    Over lower (fresh.insert name object) (used.insert name object) where
  components := by
    simp only [Store.insert, laid.components, Entries.overlay_put lower laid.distinct]
  distinct := Entries.nodup_names_put laid.distinct name object
  noted := by
    simp only [Store.insert, laid.has_eq]
    cases fresh.components.has name with
    | true =>
      simp only [Bool.or_true, if_true]
      exact laid.noted.append (List.Sublist.refl _)
    | false =>
      simp only [Bool.or_false, Bool.false_eq_true, if_false]
      split
      · exact laid.noted.trans (List.sublist_append_left _ _)
      · exact laid.noted
  counted := by
    have counted := laid.counted
    have names := Entries.names_put fresh.components name object
    simp only [Store.insert, laid.has_eq, Entries.commonCollisions, names] at counted ⊢
    cases present : fresh.components.has name with
    | true =>
      rw [Entries.has_eq_true_iff] at present
      simp only [Bool.or_true, if_true, present, List.append_assoc]
      refine (counted.append_right _).trans ?_
      rw [List.append_assoc]
      exact List.perm_append_comm.append_left _
    | false =>
      have absent : name ∉ fresh.components.names := fun member => by
        rw [Entries.has_eq_true_iff.mpr member] at present
        cases present
      simp only [Bool.or_false, absent, if_false, Bool.false_eq_true, List.filter_append,
        List.map_append]
      cases below : lower.has name with
      | true =>
        rw [Entries.has_eq_true_iff] at below
        simp only [if_true, ← List.append_assoc]
        have last : (List.filter (fun name => lower.names.contains name) [name]).map
            Warning.componentCollision = [.componentCollision name] := by simp [below]
        rw [last]
        exact counted.append_right _
      | false =>
        have free : name ∉ lower.names := fun member => by
          rw [Entries.has_eq_true_iff.mpr member] at below
          cases below
        simpa [free] using counted

theorem record (laid : Over lower fresh used) (registrations : Registrations) :
    Over lower (fresh.record registrations) (used.record registrations) := by
  induction registrations generalizing fresh used with
  | nil => exact laid
  | cons entry rest inductionHypothesis =>
    exact inductionHypothesis (laid.insert entry.1 entry.2)

/-- Other warnings come to both sides alike. -/
theorem note (laid : Over lower fresh used) (warnings : List Warning) :
    Over lower { fresh with warnings := fresh.warnings ++ warnings }
      { used with warnings := used.warnings ++ warnings } where
  components := laid.components
  distinct := laid.distinct
  noted := laid.noted.append (List.Sublist.refl _)
  counted := by
    refine (laid.counted.append_right warnings).trans ?_
    rw [List.append_assoc, List.append_assoc]
    exact List.perm_append_comm.append_left _

theorem absorb (laid : Over lower fresh used) (components : Store) :
    Over lower (fresh.absorb components) (used.absorb components) :=
  (laid.note components.warnings).record components.components

end Store.Over

/-! ## Two runs, one of them over earlier components -/

/-- What a run from the lower entries has reached, against the same run from
the empty store. -/
structure Progress.Over (lower : Entries SchemaObject) (fresh used : Progress) : Prop where
  contribution : used.contribution = fresh.contribution
  tags : used.assembly.tags = fresh.assembly.tags
  servers : used.assembly.servers = fresh.assembly.servers
  documented : used.assembly.documented = fresh.assembly.documented
  ledgers : fresh.assembly.ledger.Over lower used.assembly.ledger
  silentFresh : fresh.assembly.store.Silent
  silentUsed : used.assembly.store.Silent

namespace Claim

variable {lower : Entries SchemaObject} {fresh used : Progress}

theorem advance_over (claim : Claim) (laid : Progress.Over lower fresh used) :
    Agree (Progress.Over lower) (claim.advance fresh) (claim.advance used) := by
  have sameFind : used.assembly.find? claim.context.fullPath claim.context.method =
      fresh.assembly.find? claim.context.fullPath claim.context.method := by
    simp only [Assembly.find?, laid.documented]
  have sameContributed : claim.contributed used = claim.contributed fresh := by
    simp only [contributed, laid.contribution]
  cases found : fresh.assembly.find? claim.context.fullPath claim.context.method with
  | some existing =>
    rw [advance_of_found found, advance_of_found (sameFind.trans found), sameContributed]
    cases Assembly.sharedServer? claim.context existing with
    | some server =>
      exact
        { contribution := rfl
          tags := laid.tags
          servers := by simp only [Assembly.share, laid.servers]
          documented := by simp only [Assembly.share, laid.documented]
          ledgers := laid.ledgers
          silentFresh := laid.silentFresh
          silentUsed := laid.silentUsed }
    | none =>
      have ledgers := laid.ledgers.note
        [.duplicateOperation claim.context.fullPath claim.context.method existing.claimedBy]
      rw [← Assembly.ledger_drop laid.silentFresh, ← Assembly.ledger_drop laid.silentUsed]
        at ledgers
      exact
        { contribution := rfl
          tags := laid.tags
          servers := laid.servers
          documented := laid.documented
          ledgers := ledgers
          silentFresh := laid.silentFresh
          silentUsed := laid.silentUsed }
  | none =>
    cases built : claim.context.build with
    | error fault =>
      simp only [advance, OperationContext.claim, found, sameFind.trans found, built]
      exact rfl
    | ok made =>
      rw [advance_of_free found built, advance_of_free (sameFind.trans found) built,
        sameContributed]
      have ledgers := laid.ledgers.absorb ((claim.contributed fresh).unrepeated made.2)
      rw [← Assembly.ledger_absorb, ← Assembly.ledger_absorb] at ledgers
      exact
        { contribution := rfl
          tags := by simp only [Assembly.accept, Assembly.absorb, laid.tags]
          servers := by simp only [Assembly.accept, Assembly.absorb, laid.servers]
          documented := by simp only [Assembly.accept, Assembly.absorb, laid.documented]
          ledgers := ledgers
          silentFresh := rfl
          silentUsed := rfl }

theorem run_over (claims : List Claim) (laid : Progress.Over lower fresh used) :
    Progress.Over lower (run claims fresh).1 (run claims used).1 ∧
      (run claims fresh).2 = (run claims used).2 := by
  rw [run_eq_runWith, run_eq_runWith]
  exact runWith_related (fun claim _ _ held => claim.advance_over held) claims laid

end Claim

/-! ## Documents outside their schemas -/

/-- Change what an object has under a key. -/
def Json.mapField (name : String) (change : Json → Json) (value : Json) : Json :=
  match value with
  | .object entries =>
    .object (entries.map fun entry =>
      if entry.1 = name then (entry.1, change entry.2) else entry)
  | other => other

/-- The object without what it has under a key; the key stays in its place. -/
def Json.blank (name : String) (value : Json) : Json :=
  value.mapField name fun _ => .null

/-- A document without the schemas of its components. -/
def Document.outsideSchemas (document : Json) : Json :=
  document.mapField "components" (Json.blank "schemas")

theorem Json.blank_withoutReserved_put (entries : Entries Json) (name : String)
    (first second : Json) :
    (withoutReserved (.object (entries.put name first))).blank name =
      (withoutReserved (.object (entries.put name second))).blank name := by
  simp only [withoutReserved_object, blank, mapField, object.injEq]
  induction entries with
  | nil =>
    simp only [Entries.put, withoutReservedEntries]
    split <;> simp
  | cons entry rest inductionHypothesis =>
    rcases entry with ⟨key, value⟩
    by_cases same : key = name
    · simp only [Entries.put, same, if_true, withoutReservedEntries]
      split <;> simp
    · simp only [Entries.put, same, if_false, withoutReservedEntries]
      split
      · exact inductionHypothesis
      · simp only [List.map_cons, inductionHypothesis]

/-- The store shows nowhere but in the schemas. -/
theorem Document.outsideSchemas_render (version : Version) (versionText : String)
    (base : Entries Json) {first second : Assembly} (tags : second.tags = first.tags)
    (servers : second.servers = first.servers)
    (documented : second.documented = first.documented) :
    outsideSchemas (render version versionText base second) =
      outsideSchemas (render version versionText base first) := by
  have parts : ∀ assembly : Assembly,
      ("openapi", Json.text versionText) :: own base ++ generatedParts version base assembly =
        (("openapi", Json.text versionText) :: own base ++
          [("tags", .list ((sortTags assembly.tags).map Tag.toJson)),
           ("servers", .list (assembly.servers.map Server.toJson)),
           ("paths", renderPaths version (base.get? "paths") assembly.documented)]) ++
        [("components", renderComponents version (base.get? "components") assembly.store)] := by
    intro assembly
    simp only [generatedParts, List.append_assoc, List.cons_append, List.nil_append]
  have ordinary : isReserved "components" = false := by decide
  have schemas : Json.blank "schemas" (Json.withoutReserved
        (renderComponents version (base.get? "components") second.store)) =
      Json.blank "schemas" (Json.withoutReserved
        (renderComponents version (base.get? "components") first.store)) :=
    Json.blank_withoutReserved_put _ "schemas" _ _
  simp only [render_eq, parts, tags, servers, documented, Json.withoutReserved_object,
    Json.withoutReservedEntries_append, outsideSchemas, Json.mapField, List.map_append]
  congr 2
  simp only [Json.withoutReservedEntries, ordinary, Bool.false_eq_true, if_false, List.map_cons,
    List.map_nil, if_true, schemas]

namespace Generator

/-! ## Used and fresh generators -/

/-- The generator as it was before its first call. -/
def fresh (generator : Generator) : Generator :=
  { generator with store := {}, warnings := [] }

/-- What a call of a used generator leaves, against what it leaves of a fresh
one, when stored components are kept. -/
structure Accumulates (before : Store) (freshly used : Generator) : Prop where
  /-- The components of the fresh run are laid over the earlier ones. -/
  store : used.store = { components := before.components.overlay freshly.store.components }
  /-- Earlier names keep their place and new names follow. -/
  names : used.store.names =
    before.names ++ freshly.store.names.filter fun name => !before.names.contains name
  /-- The object of the fresh run wins. -/
  objects : ∀ name, used.store.get? name = (freshly.store.get? name).or (before.get? name)
  /-- The warnings of the fresh run are all there, in their order. -/
  noted : freshly.warnings.Sublist used.warnings
  distinct : freshly.store.names.Nodup
  /-- There is one more collision for every common name, and nothing else. -/
  counted : used.warnings.Perm (freshly.warnings ++
    (freshly.store.names.filter fun name => before.names.contains name).map .componentCollision)

theorem accumulates_of_over {generator freshly used : Generator} {first second : Assembly}
    (ledgers : first.ledger.Over generator.store.components second.ledger)
    (silentFirst : first.store.Silent) (silentSecond : second.store.Silent)
    (freshStore : freshly.store = first.store) (freshWarnings : freshly.warnings = first.warnings)
    (usedStore : used.store = second.store) (usedWarnings : used.warnings = second.warnings) :
    Accumulates generator.store freshly used := by
  have laid : used.store.components =
      generator.store.components.overlay freshly.store.components := by
    rw [usedStore, freshStore]
    exact ledgers.components
  have distinct : freshly.store.names.Nodup := freshStore ▸ ledgers.distinct
  have noted := ledgers.noted
  have counted := ledgers.counted
  rw [Assembly.warnings_ledger silentFirst, Assembly.warnings_ledger silentSecond,
    ← freshWarnings, ← usedWarnings] at noted counted
  have sameComponents : first.ledger.components = freshly.store.components := by
    rw [freshStore]
    rfl
  exact
    { store := by
        have silent : used.store.warnings = [] := usedStore ▸ silentSecond
        rw [← laid, ← silent]
      names := by
        unfold Store.names
        rw [laid]
        exact Entries.names_overlay _ distinct
      objects := by
        intro name
        unfold Store.get?
        rw [laid]
        exact Entries.get?_overlay _ distinct name
      noted := noted
      distinct := distinct
      counted := by rwa [sameComponents] at counted }

/-- What a generation begins with, over the components of the generator and without them. -/
theorem over_start {store : Store} (silent : store.Silent) (begun : Assembly) :
    Progress.Over store.components (.start { begun with store := {} })
      (.start { begun with store := store }) where
  contribution := rfl
  tags := rfl
  servers := rfl
  documented := rfl
  ledgers :=
    { components := rfl
      distinct := List.nodup_nil
      noted := List.Sublist.append_left (List.nil_sublist _) begun.warnings
      counted := by
        have none : store.warnings = [] := silent
        simp [Assembly.ledger, Progress.start, none, Entries.commonCollisions] }
  silentFresh := rfl
  silentUsed := silent

variable {generator : Generator} {versionText : String} {version : Version}

theorem generate_perCall (supported : Version.ofText? versionText = some version)
    (lifetime : generator.settings.componentLifetime = .perCall) (routes : List Route) :
    generator.generate versionText routes = generator.fresh.generate versionText routes := by
  have sameStart : generator.fresh.startingStore = generator.startingStore := by
    simp only [startingStore, fresh, lifetime]
  have sameBeginning : generator.fresh.beginning = generator.beginning := by
    simp only [beginning, sameStart]
    rfl
  have sameAssembled : generator.fresh.assemble routes = generator.assemble routes := by
    simp only [assemble, sameBeginning]
    rfl
  simp only [generate, supported, generateFor, sameAssembled, sameStart]
  rfl

theorem generate_persistent (silent : generator.store.Silent)
    (supported : Version.ofText? versionText = some version)
    (lifetime : generator.settings.componentLifetime = .persistent) (routes : List Route) :
    (generator.generate versionText routes).1.map Document.outsideSchemas =
        (generator.fresh.generate versionText routes).1.map Document.outsideSchemas ∧
      Accumulates generator.store (generator.fresh.generate versionText routes).2
        (generator.generate versionText routes).2 := by
  have usedStart : generator.startingStore = generator.store := by
    simp only [startingStore, lifetime]
  have freshStart : generator.fresh.startingStore = {} := by
    simp only [startingStore, fresh, lifetime]
  cases read : baseParts generator.base with
  | error fault =>
    have used : generator.beginning = .error fault := by simp only [beginning, read, Except.map]
    have freshly : generator.fresh.beginning = .error fault := by
      have readFresh : baseParts generator.fresh.base = .error fault := read
      simp only [beginning, readFresh, Except.map]
    have laid := (over_start silent { warnings := baseWarnings generator.base }).ledgers
    simp only [generate, supported, generateFor, assemble, used, freshly, Except.map, usedStart,
      freshStart, true_and]
    exact accumulates_of_over laid rfl silent rfl rfl rfl rfl
  | ok parts =>
    let begun : Assembly :=
      { tags := parts.1, servers := parts.2, warnings := baseWarnings generator.base }
    have used : generator.beginning = .ok { begun with store := generator.store } := by
      simp only [beginning, read, Except.map, usedStart, begun]
    have freshly : generator.fresh.beginning = .ok { begun with store := {} } := by
      have readFresh : baseParts generator.fresh.base = .ok parts := read
      simp only [beginning, readFresh, Except.map, freshStart, begun]
      rfl
    have sameClaims : generator.fresh.claims routes = generator.claims routes := rfl
    obtain ⟨laid, sameFault⟩ :=
      Claim.run_over (generator.claims routes) (over_start silent begun)
    rw [generate_snd supported used, generate_snd supported freshly,
      generate_outcome supported used, generate_outcome supported freshly, sameClaims]
    refine ⟨?_, accumulates_of_over laid.ledgers laid.silentFresh laid.silentUsed rfl rfl rfl rfl⟩
    rw [← sameFault]
    cases (Claim.run (generator.claims routes) (.start { begun with store := {} })).2 with
    | some fault => rfl
    | none =>
      have documents := Document.outsideSchemas_render version versionText
        (baseRest generator.base) laid.tags laid.servers laid.documented
      exact congrArg Except.ok documents

/-- Whatever a generator has been used for, no warnings wait in its store. -/
theorem silent_performAll_fresh (generator : Generator) (calls : List Call) :
    (generator.fresh.performAll calls).store.Silent :=
  @performAll_silent generator.fresh rfl calls

/-- A call has the outcome that it would have had as the first call, also in
what goes wrong; only the schemas of the document can differ.  Where the store
is emptied before every call, nothing differs.  Where components are kept,
those of the call are laid over those of the earlier calls. -/
theorem generate_after_earlier_calls (generator : Generator) (silent : generator.store.Silent)
    (versionText : String) (routes : List Route) :
    (generator.generate versionText routes).1.map Document.outsideSchemas =
        (generator.fresh.generate versionText routes).1.map Document.outsideSchemas ∧
      ∀ version, Version.ofText? versionText = some version →
        (generator.settings.componentLifetime = .perCall →
          generator.generate versionText routes = generator.fresh.generate versionText routes) ∧
        (generator.settings.componentLifetime = .persistent →
          Accumulates generator.store (generator.fresh.generate versionText routes).2
            (generator.generate versionText routes).2) := by
  constructor
  · cases supported : Version.ofText? versionText with
    | none => simp only [generate, supported]
    | some version =>
      cases lifetime : generator.settings.componentLifetime with
      | perCall => rw [generate_perCall supported lifetime]
      | persistent => exact (generate_persistent silent supported lifetime routes).1
  · intro version supported
    exact ⟨fun lifetime => generate_perCall supported lifetime routes,
      fun lifetime => (generate_persistent silent supported lifetime routes).2⟩

/-- The same action with another field, once with the store kept and once without. -/
theorem generate_after_earlier_calls_posting :
    ∃ before : Store,
      before = ((unused {} []).performAll [.generate "3.0" [.posting "a" .text "s1"]]).store ∧
      ({ settings := {}, store := before } : Generator).generate "3.0"
          [.posting "a" .number "s1"] =
        (unused {} []).generate "3.0" [.posting "a" .number "s1"] ∧
      Accumulates before
        ((unused { componentLifetime := .persistent } []).generate "3.0"
          [.posting "a" .number "s1"]).2
        (({ settings := { componentLifetime := .persistent }, store := before } :
          Generator).generate "3.0" [.posting "a" .number "s1"]).2 := by
  let before := ((unused {} []).performAll [.generate "3.0" [.posting "a" .text "s1"]]).store
  have silent : before.Silent := silent_performAll_fresh (unused {} []) _
  have supported : Version.ofText? "3.0" = some .v30 := by decide
  have emptied := generate_after_earlier_calls { settings := {}, store := before } silent "3.0"
    [.posting "a" .number "s1"]
  have kept := generate_after_earlier_calls
    { settings := { componentLifetime := .persistent }, store := before } silent "3.0"
    [.posting "a" .number "s1"]
  exact ⟨before, rfl, (emptied.2 .v30 supported).1 rfl, (kept.2 .v30 supported).2 rfl⟩

end Generator
end RouteDocs
