import Mathlib.Data.List.Chain
import RouteDocs.Document.Generator
import RouteDocs.Proofs.Operation.Methods
import RouteDocs.Proofs.Sorting

namespace RouteDocs

/-!
# The claims of a generation

A generation is two loops, one over routes and one over the methods of a route.
Both together are one sequence of claims.  A claim needs to know only whether
it is the first of its route, because then the route has stored nothing yet.
`claimRoutes_eq_run` says that the loops are a run over this sequence.

`Claim.Step` lists all that a claim can do; whatever is to be shown of a
generation is shown for these three steps and carried along the run.
-/

/-- A claim of one method of a route. -/
structure Claim where
  context : OperationContext
  /-- No earlier method of the route has been claimed. -/
  opening : Bool

/-- What a run has reached between two claims. -/
structure Progress where
  /-- What the route of the last claim has stored. -/
  contribution : Contribution
  assembly : Assembly

def Progress.start (begun : Assembly) : Progress where
  contribution := []
  assembly := begun

namespace Claim

/-- What the route of the claim has stored before it. -/
def contributed (claim : Claim) (before : Progress) : Contribution :=
  if claim.opening then [] else before.contribution

def advance (claim : Claim) (before : Progress) : Except Fault Progress :=
  (claim.context.claim (claim.contributed before) before.assembly).map
    fun (contribution, assembly) => { contribution, assembly }

/-- Make claims one after the other, up to the first that fails. -/
def run (claims : List Claim) (before : Progress) : Progress × Option Fault :=
  match claims with
  | [] => (before, none)
  | claim :: rest =>
    match claim.advance before with
    | .ok after => run rest after
    | .error fault => (before, some fault)

def isFor (claim : Claim) (path : String) (method : Method) : Bool :=
  claim.context.fullPath == path && claim.context.method == method

/-- A claim continues another when it begins a route or belongs to the same one. -/
def Continues (earlier later : Claim) : Prop :=
  later.opening = true ∨ later.context = earlier.context.forMethod later.context.method

end Claim

/-- What is left of the components of a claim when those that its route has
stored before are passed over. -/
def Contribution.unrepeated (contribution : Contribution) (built : Store) : Store :=
  built.retain fun name object => !contribution.repeats name object

/-! ## The steps of a run -/

/-- What a claim does when it does not fail. -/
inductive Claim.Step (claim : Claim) (before : Progress) : Progress → Prop where
  /-- The operation exists and takes the server of the claim. -/
  | share (existing : Operation) (server : Server)
      (found : before.assembly.find? claim.context.fullPath claim.context.method = some existing)
      (shared : Assembly.sharedServer? claim.context existing = some server) :
      Step claim before
        { contribution := claim.contributed before
          assembly :=
            before.assembly.share claim.context.fullPath claim.context.method server }
  /-- The operation exists and the claim is dropped with a warning. -/
  | drop (existing : Operation)
      (found : before.assembly.find? claim.context.fullPath claim.context.method = some existing)
      (refused : Assembly.sharedServer? claim.context existing = none) :
      Step claim before
        { contribution := claim.contributed before
          assembly := before.assembly.drop claim.context.fullPath claim.context.method
            existing.claimedBy }
  /-- There is no operation yet, and that of the claim is documented. -/
  | accept (operation : Operation) (built : Store)
      (free : before.assembly.find? claim.context.fullPath claim.context.method = none)
      (succeeded : claim.context.build = .ok (operation, built)) :
      Step claim before
        { contribution := (claim.contributed before).overlay
            ((claim.contributed before).unrepeated built).components
          assembly := (before.assembly.absorb
            ((claim.contributed before).unrepeated built)).accept claim.context operation }

theorem Assembly.find?_accept_of_free {assembly : Assembly} {context : OperationContext}
    (free : assembly.find? context.fullPath context.method = none) (components : Store)
    (operation : Operation) :
    ((assembly.absorb components).accept context operation).find? context.fullPath
      context.method = some operation := by
  unfold find? at free ⊢
  rw [Option.map_eq_none_iff] at free
  simp only [accept, absorb, List.find?_append, free, Option.none_or, List.find?_cons,
    beq_self_eq_true, Bool.and_self, Option.map_some]

namespace Claim

theorem step_of_advance {claim : Claim} {before after : Progress}
    (advanced : claim.advance before = .ok after) : claim.Step before after := by
  obtain ⟨⟨contribution, assembly⟩, claimed, rfl⟩ := Except.eq_ok_of_map_eq_ok advanced
  unfold OperationContext.claim at claimed
  split at claimed
  · next existing found =>
    split at claimed
    · next server shared =>
      cases claimed
      exact .share existing server found shared
    · next refused =>
      cases claimed
      exact .drop existing found refused
  · next free =>
    split at claimed
    · cases claimed
    · next operation built succeeded =>
      cases claimed
      exact .accept operation built free succeeded

theorem advance_of_free {claim : Claim} {before : Progress} {operation : Operation} {built : Store}
    (free : before.assembly.find? claim.context.fullPath claim.context.method = none)
    (succeeded : claim.context.build = .ok (operation, built)) :
    claim.advance before = .ok
      { contribution := (claim.contributed before).overlay
          ((claim.contributed before).unrepeated built).components
        assembly := (before.assembly.absorb
          ((claim.contributed before).unrepeated built)).accept claim.context operation } := by
  simp only [advance, OperationContext.claim, free, succeeded, Except.map]
  rfl

/-- A claim for an existing operation never fails: it shares its server or is dropped. -/
theorem advance_of_found {claim : Claim} {before : Progress} {existing : Operation}
    (found :
      before.assembly.find? claim.context.fullPath claim.context.method = some existing) :
    claim.advance before = .ok
      { contribution := claim.contributed before
        assembly :=
          match Assembly.sharedServer? claim.context existing with
          | some server =>
            before.assembly.share claim.context.fullPath claim.context.method server
          | none =>
            before.assembly.drop claim.context.fullPath claim.context.method
              existing.claimedBy } := by
  simp only [advance, OperationContext.claim, found]
  cases Assembly.sharedServer? claim.context existing <;> rfl

theorem run_cons_of_advance {claim : Claim} {before after : Progress}
    (advanced : claim.advance before = .ok after) (rest : List Claim) :
    run (claim :: rest) before = run rest after := by
  simp only [run, advanced]

theorem run_append (first second : List Claim) (before : Progress) :
    run (first ++ second) before =
      match run first before with
      | (reached, none) => run second reached
      | (reached, some fault) => (reached, some fault) := by
  induction first generalizing before with
  | nil => rfl
  | cons claim rest inductionHypothesis =>
    simp only [List.cons_append, run]
    cases claim.advance before with
    | ok after => exact inductionHypothesis after
    | error fault => rfl

theorem run_append_of_reached {first second : List Claim} {before reached : Progress}
    (through : run first before = (reached, none)) :
    run (first ++ second) before = run second reached := by
  rw [run_append, through]

/-- A run gets through claims that can all be built. -/
theorem run_of_builds {claims : List Claim}
    (builds : ∀ claim ∈ claims, ∃ operation built, claim.context.build = .ok (operation, built))
    (before : Progress) : ∃ reached, run claims before = (reached, none) := by
  induction claims generalizing before with
  | nil => exact ⟨before, rfl⟩
  | cons claim rest inductionHypothesis =>
    have others := fun other member => builds other (List.mem_cons_of_mem claim member)
    cases found : before.assembly.find? claim.context.fullPath claim.context.method with
    | some existing =>
      rw [run_cons_of_advance (advance_of_found found)]
      exact inductionHypothesis others _
    | none =>
      obtain ⟨operation, built, succeeded⟩ := builds claim List.mem_cons_self
      rw [run_cons_of_advance (advance_of_free found succeeded)]
      exact inductionHypothesis others _

/-- What every step preserves holds after a run, also after one that fails. -/
theorem run_invariant {invariant : Progress → Prop} {claims : List Claim} {before : Progress}
    (start : invariant before)
    (preserved : ∀ claim ∈ claims, ∀ earlier later, claim.Step earlier later →
      invariant earlier → invariant later) :
    invariant (run claims before).1 := by
  induction claims generalizing before with
  | nil => exact start
  | cons claim rest inductionHypothesis =>
    unfold run
    split
    · next after advanced =>
      apply inductionHypothesis
      · exact preserved claim List.mem_cons_self before after (step_of_advance advanced) start
      · exact fun other member => preserved other (List.mem_cons_of_mem _ member)
    · exact start

/-- The same for a property of what has been claimed so far: it holds of all
claims after a run that gets through them. -/
theorem run_history {property : List Claim → Progress → Prop} {claims : List Claim}
    {before after : Progress} (through : run claims before = (after, none))
    (start : property [] before)
    (preserved : ∀ done claim, (done ++ [claim]) <+: claims → ∀ earlier later,
      claim.Step earlier later → property done earlier → property (done ++ [claim]) later) :
    property claims after := by
  -- The induction is on the claims to come, for every list of claims made before them.
  have general : ∀ (rest done : List Claim) (reached : Progress), done ++ rest = claims →
      run rest reached = (after, none) → property done reached → property claims after := by
    intro rest
    induction rest with
    | nil =>
      intro done reached whole remaining held
      cases remaining
      rw [List.append_nil] at whole
      exact whole ▸ held
    | cons claim rest inductionHypothesis =>
      intro done reached whole remaining held
      unfold run at remaining
      split at remaining
      · next further advanced =>
        have extended : (done ++ [claim]) ++ rest = claims := by
          rw [List.append_assoc, List.singleton_append, whole]
        apply inductionHypothesis (done ++ [claim]) further extended remaining
        exact preserved done claim ⟨rest, extended⟩ reached further (step_of_advance advanced) held
      · cases remaining
  exact general claims [] before rfl through start

theorem advance_opening (context : OperationContext) (before : Progress) :
    advance { context := context, opening := true } before =
      advance { context := context, opening := false } { before with contribution := [] } :=
  rfl

end Claim

/-! ## The loops of a generation -/

/-- Routes of one path keep their order. -/
theorem Route.filter_inPathOrder (routes : List Route) (path : String) :
    (inPathOrder routes).filter (fun route => route.fullPath == path) =
      routes.filter fun route => route.fullPath == path :=
  Sorting.filter_mergeSort fullPath routes path

namespace Workshop

def claimsOf (workshop : Workshop) (route : Route) : List Claim :=
  match route.effectiveMethods with
  | [] => []
  | first :: rest =>
    { context := workshop.context route first, opening := true } ::
      rest.map fun method => { context := workshop.context route method, opening := false }

/-- The claims of the documented routes in order. -/
def claims (workshop : Workshop) (routes : List Route) : List Claim :=
  (routes.filter Route.isDocumented).flatMap workshop.claimsOf

variable (workshop : Workshop)

@[simp] theorem fullPath_context (route : Route) (method : Method) :
    (workshop.context route method).fullPath = route.fullPath := rfl

@[simp] theorem method_context (route : Route) (method : Method) :
    (workshop.context route method).method = method := rfl

theorem mem_claimsOf {route : Route} {claim : Claim} (member : claim ∈ workshop.claimsOf route) :
    ∃ method ∈ route.effectiveMethods, claim.context = workshop.context route method := by
  unfold claimsOf at member
  cases methods : route.effectiveMethods with
  | nil => simp only [methods, List.not_mem_nil] at member
  | cons first rest =>
    simp only [methods, List.mem_cons, List.mem_map] at member
    rcases member with rfl | ⟨method, listed, rfl⟩
    · exact ⟨first, List.mem_cons_self, rfl⟩
    · exact ⟨method, List.mem_cons_of_mem _ listed, rfl⟩

theorem map_context_claimsOf (route : Route) :
    (workshop.claimsOf route).map Claim.context =
      route.effectiveMethods.map (workshop.context route) := by
  unfold claimsOf
  cases route.effectiveMethods with
  | nil => rfl
  | cons first rest =>
    simp only [List.map_cons, List.map_map]
    rfl

theorem claims_cons (route : Route) (rest : List Route) :
    workshop.claims (route :: rest) =
      (if route.isDocumented then workshop.claimsOf route else []) ++ workshop.claims rest := by
  unfold claims
  cases documented : route.isDocumented <;> simp [documented]

theorem claims_append (first second : List Route) :
    workshop.claims (first ++ second) = workshop.claims first ++ workshop.claims second := by
  simp only [claims, List.filter_append, List.flatMap_append]

theorem isDocumented_of_mem_claims {routes : List Route} {claim : Claim}
    (member : claim ∈ workshop.claims routes) : claim.context.route.isDocumented = true := by
  obtain ⟨route, listed, claimed⟩ := List.mem_flatMap.mp member
  obtain ⟨method, -, same⟩ := workshop.mem_claimsOf claimed
  rw [same]
  exact (List.mem_filter.mp listed).2

theorem claimMethods_eq_run (route : Route) (methods : List Method) (before : Progress) :
    workshop.claimMethods route methods before.contribution before.assembly =
      ((Claim.run (methods.map fun method =>
          { context := workshop.context route method, opening := false }) before).1.assembly,
        (Claim.run (methods.map fun method =>
          { context := workshop.context route method, opening := false }) before).2) := by
  induction methods generalizing before with
  | nil => rfl
  | cons method rest inductionHypothesis =>
    have claimed : Claim.advance
        { context := workshop.context route method, opening := false } before =
        ((workshop.context route method).claim before.contribution before.assembly).map
          fun (contribution, assembly) => { contribution, assembly } := rfl
    simp only [claimMethods, List.map_cons, Claim.run, claimed]
    cases (workshop.context route method).claim before.contribution before.assembly with
    | error fault => rfl
    | ok reached => exact inductionHypothesis { contribution := reached.1, assembly := reached.2 }

theorem claimsOf_run (route : Route) (before : Progress) :
    workshop.claimMethods route route.effectiveMethods [] before.assembly =
      ((Claim.run (workshop.claimsOf route) before).1.assembly,
        (Claim.run (workshop.claimsOf route) before).2) := by
  unfold claimsOf
  cases route.effectiveMethods with
  | nil => rfl
  | cons first rest =>
    have closed :=
      workshop.claimMethods_eq_run route (first :: rest) { before with contribution := [] }
    rw [closed]
    simp only [List.map_cons, Claim.run, Claim.advance_opening]
    cases Claim.advance { context := workshop.context route first, opening := false }
      { before with contribution := [] } <;> rfl

/-- The loops over routes and methods are one run over the claims. -/
theorem claimRoutes_eq_run (routes : List Route) (before : Progress) :
    workshop.claimRoutes routes before.assembly =
      ((Claim.run (workshop.claims routes) before).1.assembly,
        (Claim.run (workshop.claims routes) before).2) := by
  induction routes generalizing before with
  | nil => rfl
  | cons route rest inductionHypothesis =>
    unfold claimRoutes
    split
    · next documented =>
      have split : workshop.claims (route :: rest) =
          workshop.claimsOf route ++ workshop.claims rest := by
        simp only [claims, List.filter_cons_of_pos documented, List.flatMap_cons]
      rw [split, Claim.run_append, workshop.claimsOf_run route before]
      rcases Claim.run (workshop.claimsOf route) before with ⟨reached, _ | fault⟩
      · exact inductionHypothesis reached
      · rfl
    · next skipped =>
      have same : workshop.claims (route :: rest) = workshop.claims rest := by
        simp only [claims, List.filter_cons_of_neg skipped]
      rw [same]
      exact inductionHypothesis before

theorem claimsOf_isChain (route : Route) :
    (workshop.claimsOf route).IsChain Claim.Continues := by
  unfold claimsOf
  cases route.effectiveMethods with
  | nil => exact .nil
  | cons first rest =>
    generalize true = opening
    induction rest generalizing first opening with
    | nil => exact .singleton _
    | cons second rest inductionHypothesis =>
      exact .cons_cons (Or.inr rfl) (inductionHypothesis second false)

theorem opening_of_mem_head? {routes : List Route} {claim : Claim}
    (first : claim ∈ (routes.flatMap workshop.claimsOf).head?) : claim.opening = true := by
  induction routes with
  | nil => cases first
  | cons route rest inductionHypothesis =>
    rw [List.flatMap_cons, List.head?_append] at first
    unfold claimsOf at first
    split at first
    · exact inductionHypothesis first
    · cases first
      rfl

/-- Every claim begins a route or continues the one before it. -/
theorem claims_isChain (routes : List Route) :
    (workshop.claims routes).IsChain Claim.Continues := by
  unfold claims
  induction routes.filter Route.isDocumented with
  | nil => exact .nil
  | cons route rest inductionHypothesis =>
    rw [List.flatMap_cons, List.isChain_append]
    refine ⟨workshop.claimsOf_isChain route, inductionHypothesis, ?_⟩
    intro earlier _ later first
    exact Or.inl (workshop.opening_of_mem_head? first)

end Workshop

namespace Generator

def claims (generator : Generator) (routes : List Route) : List Claim :=
  generator.workshop.claims (Route.inPathOrder routes)

/-- A generation assembles what a run over its claims reaches. -/
theorem assemble_eq_run (generator : Generator) (routes : List Route) :
    generator.assemble routes =
      generator.beginning.map fun begun =>
        ((Claim.run (generator.claims routes) (.start begun)).1.assembly,
          (Claim.run (generator.claims routes) (.start begun)).2) := by
  unfold assemble claims
  congr 1
  funext begun
  exact generator.workshop.claimRoutes_eq_run (Route.inPathOrder routes) (.start begun)

theorem assemble_of_run {generator : Generator} {routes : List Route} {begun : Assembly}
    (started : generator.beginning = .ok begun) {reached : Progress} {fault? : Option Fault}
    (through : Claim.run (generator.claims routes) (.start begun) = (reached, fault?)) :
    generator.assemble routes = .ok (reached.assembly, fault?) := by
  rw [assemble_eq_run, started, Except.map, through]

end Generator
end RouteDocs
