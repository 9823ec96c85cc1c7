import RouteDocs.Proofs.Document.Outcome
import RouteDocs.Proofs.Document.PathOrder
import RouteDocs.Proofs.Document.SharedServers

namespace RouteDocs

/-!
# Routes that are dropped

A route whose claims are all dropped leaves nothing but warnings.  This is
because a dropped claim changes nothing but the warnings, and because no claim
ever looks at them: what a run does is the same after any warnings
(`Claim.run_after`).  So the claims behind the route do the same with it and
without it.

A route can be taken out of a list at any place.  Which routes come before it
is a matter of the stable sort by paths, not of the list alone.
-/

namespace Route

variable (route : Route) (before after : List Route)

/-- The routes that are claimed before a route that stands between two lists. -/
def earlierThan : List Route :=
  Sorting.sortedUpTo fullPath route.fullPath before after

def laterThan : List Route :=
  Sorting.sortedFrom fullPath route.fullPath before after

theorem inPathOrder_around :
    inPathOrder (before ++ route :: after) =
      route.earlierThan before after ++ route :: route.laterThan before after := by
  have level : ∀ other ∈ [route], fullPath other = route.fullPath := fun other member => by
    rw [List.mem_singleton.mp member]
  exact Sorting.mergeSort_around level

theorem inPathOrder_without :
    inPathOrder (before ++ after) =
      route.earlierThan before after ++ route.laterThan before after := by
  have level : ∀ other ∈ [], fullPath other = route.fullPath := fun other member => nomatch member
  exact Sorting.mergeSort_around level

end Route

/-! ## Warnings are only written -/

/-- The same with earlier warnings in front of its own. -/
def Assembly.after (assembly : Assembly) (earlier : List Warning) : Assembly :=
  { assembly with warnings := earlier ++ assembly.warnings }

def Progress.after (progress : Progress) (earlier : List Warning) : Progress :=
  { progress with assembly := progress.assembly.after earlier }

namespace Assembly

variable (assembly : Assembly) (earlier : List Warning)

theorem drop_after (path : String) (method : Method) (claimedBy : String) :
    (assembly.after earlier).drop path method claimedBy =
      (assembly.drop path method claimedBy).after earlier := by
  simp only [after, drop, List.append_assoc]

theorem absorb_after (components : Store) :
    (assembly.after earlier).absorb components = (assembly.absorb components).after earlier := by
  simp only [after, absorb, List.append_assoc]

end Assembly

namespace Claim

theorem advance_after (claim : Claim) (before : Progress) (earlier : List Warning) :
    claim.advance (before.after earlier) =
      (claim.advance before).map fun reached => reached.after earlier := by
  have same : (before.after earlier).assembly.find? claim.context.fullPath claim.context.method =
      before.assembly.find? claim.context.fullPath claim.context.method := rfl
  cases found : before.assembly.find? claim.context.fullPath claim.context.method with
  | some existing =>
    rw [advance_of_found found, advance_of_found (same.trans found)]
    cases Assembly.sharedServer? claim.context existing with
    | some server => rfl
    | none =>
      simp only [Progress.after, Except.map, Assembly.drop_after]
      rfl
  | none =>
    cases built : claim.context.build with
    | error fault => simp only [advance, OperationContext.claim, found, same, built, Except.map]
    | ok result =>
      rw [advance_of_free found built, advance_of_free (same.trans found) built]
      simp only [Progress.after, Except.map, Assembly.absorb_after]
      rfl

/-- What a run does is the same after any warnings. -/
theorem run_after (claims : List Claim) (before : Progress) (earlier : List Warning) :
    run claims (before.after earlier) =
      ((run claims before).1.after earlier, (run claims before).2) := by
  induction claims generalizing before with
  | nil => rfl
  | cons claim rest inductionHypothesis =>
    simp only [run, advance_after]
    cases claim.advance before with
    | error fault => rfl
    | ok reached => exact inductionHypothesis reached

end Claim

/-- Two runs over the same routes, from assemblies that differ in the warnings
noted so far, end alike and note the same. -/
theorem Workshop.run_claims_apart (workshop : Workshop) (routes : List Route)
    {left right : Progress} {common : Assembly} {first second : List Warning}
    (leftAfter : left.assembly = common.after first)
    (rightAfter : right.assembly = common.after second) :
    ∃ (reached : Assembly) (fault? : Option Fault),
      ((Claim.run (workshop.claims routes) left).1.assembly,
        (Claim.run (workshop.claims routes) left).2) = (reached.after first, fault?) ∧
      ((Claim.run (workshop.claims routes) right).1.assembly,
        (Claim.run (workshop.claims routes) right).2) = (reached.after second, fault?) := by
  have alike : ∀ (progress : Progress) (earlier : List Warning),
      progress.assembly = common.after earlier →
      ((Claim.run (workshop.claims routes) progress).1.assembly,
        (Claim.run (workshop.claims routes) progress).2) =
        ((Claim.run (workshop.claims routes) (.start common)).1.assembly.after earlier,
          (Claim.run (workshop.claims routes) (.start common)).2) := by
    intro progress earlier noted
    -- The first claim of every route begins a new contribution, so only the assembly counts.
    rw [← workshop.claimRoutes_eq_run, noted]
    have fresh := workshop.claimRoutes_eq_run routes ((Progress.start common).after earlier)
    rw [Claim.run_after] at fresh
    exact fresh
  exact ⟨_, _, alike left first leftAfter, alike right second rightAfter⟩

/-! ## Dropped claims -/

/-- A warning says that a claim has been dropped. -/
def Warning.TellsOf (warning : Warning) (context : OperationContext) : Prop :=
  ∃ claimedBy, warning = .duplicateOperation context.fullPath context.method claimedBy

namespace Claim

/-- A claim is dropped when its operation exists and takes no server of the claim. -/
def IsDropped (claim : Claim) (reached : Progress) : Prop :=
  ∃ existing,
    reached.assembly.find? claim.context.fullPath claim.context.method = some existing ∧
      Assembly.sharedServer? claim.context existing = none

theorem IsDropped.advance {claim : Claim} {reached : Progress} (dropped : claim.IsDropped reached) :
    ∃ claimedBy, claim.advance reached = .ok (claim.dropping reached claimedBy) := by
  obtain ⟨existing, found, refused⟩ := dropped
  refine ⟨existing.claimedBy, ?_⟩
  rw [advance_of_found found, refused]
  rfl

/-- A run over claims that are all dropped gets through and adds one warning for each. -/
theorem run_dropped {claims : List Claim} {before : Progress}
    (dropped : ∀ done claim rest, claims = done ++ claim :: rest →
      ∀ reached, run done before = (reached, none) → claim.IsDropped reached) :
    ∃ reached own, run claims before = (reached, none) ∧
      reached.assembly =
        { before.assembly with warnings := before.assembly.warnings ++ own } ∧
      List.Forall₂ (fun claim warning => Warning.TellsOf warning claim.context) claims own := by
  induction claims generalizing before with
  | nil => exact ⟨before, [], rfl, by rw [List.append_nil], .nil⟩
  | cons claim rest inductionHypothesis =>
    obtain ⟨claimedBy, advanced⟩ := (dropped [] claim rest rfl before rfl).advance
    have others : ∀ done other later, rest = done ++ other :: later →
        ∀ reached, run done (claim.dropping before claimedBy) = (reached, none) →
          other.IsDropped reached := by
      intro done other later split reached through
      apply dropped (claim :: done) other later (by rw [split, List.cons_append])
      rw [run_cons_of_advance advanced, through]
    obtain ⟨reached, own, through, kept, told⟩ := inductionHypothesis others
    refine ⟨reached, .duplicateOperation claim.context.fullPath claim.context.method claimedBy ::
      own, ?_, ?_, .cons ⟨claimedBy, rfl⟩ told⟩
    · rw [run_cons_of_advance advanced, through]
    · rw [kept]
      simp only [dropping, Assembly.drop, List.append_assoc, List.singleton_append]

end Claim

/-- The warnings about a route whose claims are all dropped, one for each method. -/
theorem Workshop.run_claimsOf_dropped (workshop : Workshop) {route : Route} {before : Progress}
    (dropped : ∀ done claim rest, workshop.claimsOf route = done ++ claim :: rest →
      ∀ reached, Claim.run done before = (reached, none) → claim.IsDropped reached) :
    ∃ reached own, Claim.run (workshop.claimsOf route) before = (reached, none) ∧
      reached.assembly =
        { before.assembly with warnings := before.assembly.warnings ++ own } ∧
      List.Forall₂ (fun method warning => Warning.TellsOf warning (workshop.context route method))
        route.effectiveMethods own := by
  obtain ⟨reached, own, through, kept, told⟩ := Claim.run_dropped dropped
  refine ⟨reached, own, through, kept, ?_⟩
  have contexts : List.Forall₂ (fun context warning => Warning.TellsOf warning context)
      ((workshop.claimsOf route).map Claim.context) own := List.forall₂_map_left_iff.mpr told
  rw [map_context_claimsOf] at contexts
  exact List.forall₂_map_left_iff.mp contexts

/-! ## Generations without a route -/

namespace Generator

section

variable (generator : Generator) (versionText : String) (before : List Route) (route : Route)
  (after : List Route)

/-- A call has made the claims that come before those of a route, and then some of
the route. -/
def Reaches (done : List Claim) (reached : Progress) : Prop :=
  ∃ version begun, Version.ofText? versionText = some version ∧
    generator.beginning = .ok begun ∧
    Claim.run (generator.workshop.claims (route.earlierThan before after) ++ done)
      (.start begun) = (reached, none)

/-- Every claim of a route that a call reaches is dropped. -/
def Drops : Prop :=
  ∀ done claim rest, generator.workshop.claimsOf route = done ++ claim :: rest →
    ∀ reached, generator.Reaches versionText before route after done reached →
      claim.IsDropped reached

/-- A call comes to the claims of a route. -/
def ComesTo : Prop :=
  route.isDocumented = true ∧ ∃ reached, generator.Reaches versionText before route after [] reached

/-- How a call stands beside the one without a route of its list. -/
structure SameWithout : Prop where
  outcome : (generator.generate versionText (before ++ route :: after)).1 =
    (generator.generate versionText (before ++ after)).1
  /-- The generators afterwards, with their components, differ at most in the warnings. -/
  used : (generator.generate versionText (before ++ route :: after)).2 =
    { (generator.generate versionText (before ++ after)).2 with
      warnings := (generator.generate versionText (before ++ route :: after)).2.warnings }
  /-- The call with the route has in addition the warnings that its claims are
  dropped, one for each method, if it comes to them. -/
  warnings : ∃ first own last,
    (generator.generate versionText (before ++ route :: after)).2.warnings =
      first ++ own ++ last ∧
    (generator.generate versionText (before ++ after)).2.warnings = first ++ last ∧
    (generator.ComesTo versionText before route after →
      List.Forall₂ (fun method warning => ∃ claimedBy,
        warning = .duplicateOperation route.fullPath method claimedBy)
        route.effectiveMethods own) ∧
    (¬generator.ComesTo versionText before route after → own = [])

end

variable {generator : Generator} {versionText : String} {before : List Route} {route : Route}
  {after : List Route}

theorem claims_around (generator : Generator) (before : List Route) (route : Route)
    (after : List Route) :
    generator.claims (before ++ route :: after) =
      generator.workshop.claims (route.earlierThan before after) ++
        ((if route.isDocumented then generator.workshop.claimsOf route else []) ++
          generator.workshop.claims (route.laterThan before after)) := by
  rw [claims, Route.inPathOrder_around, Workshop.claims_append, Workshop.claims_cons]

theorem claims_without (generator : Generator) (before : List Route) (route : Route)
    (after : List Route) :
    generator.claims (before ++ after) =
      generator.workshop.claims (route.earlierThan before after) ++
        generator.workshop.claims (route.laterThan before after) := by
  rw [claims, Route.inPathOrder_without route, Workshop.claims_append]

/-- A call that does not begin does not see its routes at all. -/
theorem sameWithout_of_unseen (unseen : ∀ version begun,
      Version.ofText? versionText = some version → generator.beginning ≠ .ok begun) :
    generator.SameWithout versionText before route after := by
  have same : generator.generate versionText (before ++ route :: after) =
      generator.generate versionText (before ++ after) := by
    cases supported : Version.ofText? versionText with
    | none => simp only [generate, supported]
    | some version =>
      cases started : generator.beginning with
      | error fault =>
        simp only [generate, supported, generateFor, assemble_eq_run, started, Except.map]
      | ok begun => exact absurd started (unseen version begun supported)
  refine ⟨congrArg Prod.fst same, by rw [same], _, [], [], ?_, (List.append_nil _).symm,
    ?_, fun _ => rfl⟩
  · rw [same, List.append_nil, List.append_nil]
  · rintro ⟨-, reached, version, begun, supported, started, -⟩
    exact absurd started (unseen version begun supported)

/-- Where a call begins, the runs with and without such a route end alike. -/
theorem runs_apart {version : Version} {begun : Assembly}
    (supported : Version.ofText? versionText = some version)
    (started : generator.beginning = .ok begun)
    (dropped : route.isDocumented = false ∨ generator.Drops versionText before route after) :
    ∃ (reached : Assembly) (fault? : Option Fault) (first own : List Warning),
      ((Claim.run (generator.claims (before ++ route :: after)) (.start begun)).1.assembly,
        (Claim.run (generator.claims (before ++ route :: after)) (.start begun)).2) =
          (reached.after (first ++ own), fault?) ∧
      ((Claim.run (generator.claims (before ++ after)) (.start begun)).1.assembly,
        (Claim.run (generator.claims (before ++ after)) (.start begun)).2) =
          (reached.after first, fault?) ∧
      (generator.ComesTo versionText before route after →
        List.Forall₂ (fun method warning => Warning.TellsOf warning
          (generator.workshop.context route method)) route.effectiveMethods own) ∧
      (¬generator.ComesTo versionText before route after → own = []) := by
  rw [claims_around, claims_without generator before route after]
  cases documented : route.isDocumented with
  | false =>
    refine ⟨_, _, [], [], rfl, rfl, ?_, fun _ => rfl⟩
    rintro ⟨impossible, -⟩
    rw [documented] at impossible
    cases impossible
  | true =>
    rw [if_pos rfl]
    rcases earlier : Claim.run (generator.workshop.claims (route.earlierThan before after))
      (.start begun) with ⟨arrived, _ | fault⟩
    · have reaches : ∀ done reached, Claim.run done arrived = (reached, none) →
          generator.Reaches versionText before route after done reached :=
        fun done reached through => ⟨version, begun, supported, started, by
          rw [Claim.run_append_of_reached earlier, through]⟩
      have drops := dropped.resolve_left fun impossible => nomatch documented.symm.trans impossible
      obtain ⟨passed, own, through, kept, told⟩ :=
        generator.workshop.run_claimsOf_dropped fun done claim rest split reached ran =>
          drops done claim rest split reached (reaches done reached ran)
      let common : Assembly := { arrived.assembly with warnings := [] }
      have arrivedAfter : arrived.assembly = common.after arrived.assembly.warnings := by
        simp only [common, Assembly.after, List.append_nil]
      have passedAfter : passed.assembly = common.after (arrived.assembly.warnings ++ own) := by
        simp only [kept, common, Assembly.after, List.append_nil]
      obtain ⟨reached, fault?, withRoute, withoutRoute⟩ :=
        generator.workshop.run_claims_apart (route.laterThan before after) passedAfter arrivedAfter
      rw [Claim.run_append_of_reached earlier, Claim.run_append_of_reached earlier,
        Claim.run_append_of_reached through]
      refine ⟨reached, fault?, _, own, withRoute, withoutRoute, fun _ => told, fun absent => ?_⟩
      exact absurd ⟨documented, arrived, reaches [] arrived rfl⟩ absent
    · rw [Claim.run_append, Claim.run_append, earlier]
      refine ⟨arrived.assembly, some fault, [], [], rfl, rfl, ?_, fun _ => rfl⟩
      rintro ⟨-, reached, other, begins, -, same, through⟩
      rw [started] at same
      cases same
      rw [List.append_nil, earlier] at through
      cases through

/-- A route is inert when all its claims that a call reaches are dropped, or
when it is not documented: without it the call gives the same document or the
same fault, and the same components, and notes the same warnings but for those
that its claims are dropped. -/
theorem generate_without_dropped (generator : Generator) (versionText : String)
    {before : List Route} {route : Route} {after : List Route}
    (dropped : route.isDocumented = false ∨ generator.Drops versionText before route after) :
    generator.SameWithout versionText before route after := by
  cases supported : Version.ofText? versionText with
  | none =>
    apply sameWithout_of_unseen
    intro version begun impossible
    rw [supported] at impossible
    cases impossible
  | some version =>
    cases started : generator.beginning with
    | error fault =>
      apply sameWithout_of_unseen
      intro other begun _ impossible
      rw [started] at impossible
      cases impossible
    | ok begun =>
      obtain ⟨reached, fault?, first, own, withRoute, withoutRoute, told, untold⟩ :=
        runs_apart supported started dropped
      obtain ⟨whole, wholeFault⟩ := Prod.mk.inj withRoute
      obtain ⟨less, lessFault⟩ := Prod.mk.inj withoutRoute
      refine ⟨?_, ?_, first, own, reached.warnings, ?_, ?_, told, untold⟩
      · rw [generate_outcome supported started, generate_outcome supported started, whole,
          wholeFault, less, lessFault]
        rfl
      · rw [generate_snd supported started, generate_snd supported started, whole, less]
        rfl
      · rw [generate_snd supported started, whole]
        rfl
      · rw [generate_snd supported started, less]
        rfl

/-- The claims before the upload of one text that stands behind the route with one field. -/
theorem run_before_uploading :
    ∃ arrived existing,
      Claim.run ((unused {} []).workshop.claims
        ((Route.uploading "b").earlierThan [.posting "a" .text "s"] [])) (.start {}) =
          (arrived, none) ∧
      arrived.assembly.find? (Route.uploading "b").fullPath .post = some existing := by
  have below : (Route.posting "a" .text "s").fullPath ≤ (Route.uploading "b").fullPath :=
    String.le_refl _
  have alone : (Route.uploading "b").earlierThan [.posting "a" .text "s"] [] =
      [.posting "a" .text "s"] := by
    simp [Route.earlierThan, Sorting.sortedUpTo, below]
  obtain ⟨arrived, arrives, found⟩ :=
    Claim.run_posting "a" (MapperTable.convertFields_text "name") "s"
  rw [alone]
  exact ⟨arrived, _, arrives, found⟩

/-- There the upload is dropped. -/
theorem drops_uploading :
    (unused {} []).Drops "3.0" [.posting "a" .text "s"] (.uploading "b") [] := by
  obtain ⟨arrived, existing, arrives, found⟩ := run_before_uploading
  intro done claim rest split reached
  rintro ⟨version, begun, -, started, through⟩
  cases started
  cases done with
  | nil =>
    cases split
    rw [List.append_nil] at through
    obtain rfl := congrArg Prod.fst (arrives.symm.trans through)
    exact ⟨existing, found, rfl⟩
  | cons first others => simp [Workshop.claimsOf, Route.effectiveMethods, Route.uploading] at split

/-- The upload cannot be built, and the document is the same without it. -/
theorem generate_without_dropped_uploading :
    ((unused {} []).workshop.context (.uploading "b") .post).build =
        .error (.multipartRoot (Route.uploading "b").fullPath) ∧
      ∃ document claimedBy,
        ((unused {} []).generate "3.0" [.posting "a" .text "s", .uploading "b"]).1 =
          .ok document ∧
        ((unused {} []).generate "3.0" [.posting "a" .text "s"]).1 = .ok document ∧
        .duplicateOperation (Route.uploading "b").fullPath .post claimedBy ∈
          ((unused {} []).generate "3.0" [.posting "a" .text "s", .uploading "b"]).2.warnings := by
  have supported : Version.ofText? "3.0" = some .v30 := by decide
  have without := generate_without_dropped (unused {} []) "3.0" (Or.inr drops_uploading)
  obtain ⟨arrived, existing, arrives, -⟩ := run_before_uploading
  have reaches : (unused {} []).ComesTo "3.0" [.posting "a" .text "s"] (.uploading "b") [] :=
    ⟨rfl, arrived, .v30, {}, supported, rfl, by rw [List.append_nil, arrives]⟩
  obtain ⟨first, own, last, noted, -, told, -⟩ := without.warnings
  obtain ⟨claimedBy, rfl⟩ : ∃ claimedBy, own =
      [.duplicateOperation (Route.uploading "b").fullPath .post claimedBy] := by
    cases told reaches with
    | cons tells none =>
      obtain ⟨claimedBy, rfl⟩ := tells
      cases none
      exact ⟨claimedBy, rfl⟩
  obtain ⟨reached, through, -⟩ :=
    Claim.run_posting "a" (MapperTable.convertFields_text "name") "s"
  have claims : (unused {} []).claims [.posting "a" .text "s"] = [.posting "a" .text "s"] :=
    claims_posting [("a", .text, "s")]
  have succeeded := generate_fst supported (rfl : (unused {} []).beginning = .ok {})
    ((congrArg (Claim.run · (.start {})) claims).trans through)
  refine ⟨OperationContext.build_eq_error rfl (Route.uploadsValue_uploading "b"),
    _, claimedBy, without.outcome.trans succeeded, succeeded, ?_⟩
  have whole : ((unused {} []).generate "3.0"
      [.posting "a" .text "s", .uploading "b"]).2.warnings = _ := noted
  rw [whole]
  simp

end Generator
end RouteDocs
