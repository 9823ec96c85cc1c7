import RouteDocs.Proofs.Document.Calls

namespace RouteDocs

/-!
# The account of a path and a method

Every claim for a method at a path has exactly one outcome: the first is
documented, and each later one either adds its server or is dropped with a
warning.  `Assembly.Accounts` is this account for the claims made so far, and
`Claim.Step.accounts` carries it over one step.  A step touches only the
account of its own path and method; components and their collisions touch none.
-/

/-! ## What stands at a path and a method -/

namespace Claim

/-- The claims for a method at a path, in order. -/
def contextsAt (claims : List Claim) (path : String) (method : Method) : List OperationContext :=
  (claims.filter fun claim => claim.isFor path method).map Claim.context

theorem isFor_eq_true_iff {claim : Claim} {path : String} {method : Method} :
    claim.isFor path method = true ↔
      claim.context.fullPath = path ∧ claim.context.method = method := by
  simp only [isFor, Bool.and_eq_true, beq_iff_eq]

theorem contextsAt_append (first second : List Claim) (path : String) (method : Method) :
    contextsAt (first ++ second) path method =
      contextsAt first path method ++ contextsAt second path method := by
  simp only [contextsAt, List.filter_append, List.map_append]

theorem contextsAt_snoc (claims : List Claim) (claim : Claim) (path : String) (method : Method) :
    contextsAt (claims ++ [claim]) path method =
      contextsAt claims path method ++ if claim.isFor path method then [claim.context] else [] := by
  rw [contextsAt_append]
  cases here : claim.isFor path method <;> simp [contextsAt, here]

theorem place_of_mem_contextsAt {claims : List Claim} {path : String} {method : Method}
    {context : OperationContext} (member : context ∈ contextsAt claims path method) :
    context.fullPath = path ∧ context.method = method := by
  obtain ⟨claim, listed, rfl⟩ := List.mem_map.mp member
  exact isFor_eq_true_iff.mp (List.mem_filter.mp listed).2

theorem fullPath_of_contextsAt_eq_cons {claims : List Claim} {path : String} {method : Method}
    {first : OperationContext} {rest : List OperationContext}
    (claimed : contextsAt claims path method = first :: rest) : first.fullPath = path := by
  have member : first ∈ contextsAt claims path method := by
    rw [claimed]
    exact List.mem_cons_self
  exact (place_of_mem_contextsAt member).1

end Claim

namespace Workshop

variable (workshop : Workshop)

theorem contextsAt_claimsOf (route : Route) (path : String) (method : Method) :
    Claim.contextsAt (workshop.claimsOf route) path method =
      if route.fullPath == path then
        (route.effectiveMethods.filter (· == method)).map (workshop.context route)
      else [] := by
  have mapped : Claim.contextsAt (workshop.claimsOf route) path method =
      ((workshop.claimsOf route).map Claim.context).filter
        fun context => context.fullPath == path && context.method == method := by
    rw [List.filter_map]
    rfl
  have here : ((fun context : OperationContext =>
      context.fullPath == path && context.method == method) ∘ workshop.context route) =
        fun asked => route.fullPath == path && asked == method := by
    funext asked
    simp only [Function.comp_apply, fullPath_context, method_context]
  rw [mapped, map_context_claimsOf, List.filter_map, here]
  cases route.fullPath == path <;> simp

theorem contextsAt_claims (routes : List Route) (path : String) (method : Method) :
    Claim.contextsAt (workshop.claims routes) path method =
      ((routes.filter fun route => route.fullPath == path).filter Route.isDocumented).flatMap
        fun route =>
          (route.effectiveMethods.filter (· == method)).map (workshop.context route) := by
  induction routes with
  | nil => rfl
  | cons route rest inductionHypothesis =>
    rw [claims_cons, Claim.contextsAt_append, inductionHypothesis]
    by_cases documented : route.isDocumented = true
    · rw [if_pos documented, contextsAt_claimsOf]
      cases here : route.fullPath == path <;> simp [documented, here]
    · rw [if_neg documented]
      have nothing : Claim.contextsAt [] path method = [] := rfl
      cases here : route.fullPath == path <;> simp [documented, here, nothing]

end Workshop

def Documented.isAt (entry : Documented) (path : String) (method : Method) : Bool :=
  entry.path == path && entry.method == method

/-- Whether a warning says that a claim for a method at a path was dropped. -/
def Warning.isDuplicateAt (warning : Warning) (path : String) (method : Method) : Bool :=
  match warning with
  | .duplicateOperation claimed asked _ => claimed == path && asked == method
  | _ => false

def Operation.withServers (operation : Operation) (servers : List Server) : Operation :=
  { operation with servers := operation.servers ++ servers }

namespace Assembly

def operationsAt (assembly : Assembly) (path : String) (method : Method) : List Operation :=
  (assembly.documented.filter fun entry => entry.isAt path method).map Documented.operation

/-- The warnings about dropped claims for a method at a path. -/
def duplicatesAt (assembly : Assembly) (path : String) (method : Method) : List Warning :=
  assembly.warnings.filter fun warning => warning.isDuplicateAt path method

theorem find?_eq_head? (assembly : Assembly) (path : String) (method : Method) :
    assembly.find? path method = (assembly.operationsAt path method).head? := by
  rw [operationsAt, List.head?_map, List.head?_filter]
  rfl

theorem operationsAt_share (assembly : Assembly) (path other : String)
    (method otherMethod : Method) (server : Server) :
    (assembly.share path method server).operationsAt other otherMethod =
      (assembly.operationsAt other otherMethod).map fun operation =>
        if other = path ∧ otherMethod = method then operation.withServers [server]
        else operation := by
  have samePlace : (fun entry => Documented.isAt entry other otherMethod) ∘
      (fun entry : Documented =>
        if entry.path == path && entry.method == method then
          { entry with operation :=
              { entry.operation with servers := entry.operation.servers ++ [server] } }
        else entry) = fun entry => entry.isAt other otherMethod := by
    funext entry
    simp only [Function.comp_apply, Documented.isAt]
    split <;> rfl
  simp only [operationsAt, share, List.filter_map, List.map_map, samePlace]
  apply List.map_congr_left
  intro entry member
  have there := (List.mem_filter.mp member).2
  simp only [Documented.isAt, Bool.and_eq_true, beq_iff_eq] at there
  obtain ⟨rfl, rfl⟩ := there
  simp only [Function.comp_apply, Bool.and_eq_true, beq_iff_eq]
  split <;> rfl

theorem operationsAt_accept (assembly : Assembly) (context : OperationContext)
    (operation : Operation) (path : String) (method : Method) :
    (assembly.accept context operation).operationsAt path method =
      assembly.operationsAt path method ++
        if context.fullPath = path ∧ context.method = method then [operation] else [] := by
  simp only [operationsAt, accept, List.filter_append, List.map_append, Documented.isAt]
  by_cases here : context.fullPath = path ∧ context.method = method
  · simp [here]
  · have elsewhere : (context.fullPath == path && context.method == method) = false := by
      simpa using here
    simp [here, elsewhere]

/-- An operation at one place leaves every other place as it was. -/
theorem find?_accept_elsewhere (assembly : Assembly) (components : Store)
    {context : OperationContext} (operation : Operation) {path : String} {method : Method}
    (elsewhere : ¬(context.fullPath = path ∧ context.method = method)) :
    ((assembly.absorb components).accept context operation).find? path method =
      assembly.find? path method := by
  rw [find?_eq_head?, operationsAt_accept, if_neg elsewhere, List.append_nil, find?_eq_head?]
  rfl

theorem duplicatesAt_drop (assembly : Assembly) (path other : String)
    (method otherMethod : Method) (claimedBy : String) :
    (assembly.drop path method claimedBy).duplicatesAt other otherMethod =
      assembly.duplicatesAt other otherMethod ++
        if path = other ∧ method = otherMethod then [.duplicateOperation path method claimedBy]
        else [] := by
  simp only [duplicatesAt, drop, List.filter_append]
  by_cases here : path = other ∧ method = otherMethod
  · simp [here, Warning.isDuplicateAt]
  · have elsewhere : (path == other && method == otherMethod) = false := by simpa using here
    simp [here, Warning.isDuplicateAt, elsewhere]

theorem duplicatesAt_absorb {assembly : Assembly} {components : Store}
    (silent : assembly.store.Silent)
    (collisions : ∀ warning ∈ components.warnings, ∃ name, warning = .componentCollision name)
    (path : String) (method : Method) :
    (assembly.absorb components).duplicatesAt path method = assembly.duplicatesAt path method := by
  have none : (assembly.store.absorb components).warnings.filter
      (fun warning => warning.isDuplicateAt path method) = [] := by
    rw [List.filter_eq_nil_iff]
    intro warning noted
    have collision : ∃ name, warning = .componentCollision name := by
      rcases Store.collision_of_mem_warnings_record noted with before | collision
      · rcases List.mem_append.mp before with own | taken
        · rw [silent] at own
          cases own
        · exact collisions warning taken
      · exact collision
    obtain ⟨name, rfl⟩ := collision
    simp [Warning.isDuplicateAt]
  simp only [duplicatesAt, absorb, List.filter_append, none, List.append_nil]

end Assembly

/-! ## The servers of later claims -/

namespace Operation

/-- The later claims whose servers an operation takes, in order.  Each is
judged by the operation with the servers taken before. -/
def merging (operation : Operation) (later : List OperationContext) : List OperationContext :=
  match later with
  | [] => []
  | context :: rest =>
    match Assembly.sharedServer? context operation with
    | some server => context :: (operation.withServers [server]).merging rest
    | none => operation.merging rest

/-- The servers that an operation takes from later claims. -/
def mergedServers (operation : Operation) (later : List OperationContext) : List Server :=
  (operation.merging later).filterMap fun context => context.route.server

/-- The operation with the servers of later claims. -/
def merged (operation : Operation) (later : List OperationContext) : Operation :=
  operation.withServers (operation.mergedServers later)

@[simp] theorem withServers_nil (operation : Operation) : operation.withServers [] = operation := by
  simp only [withServers, List.append_nil]

theorem merged_nil (operation : Operation) : operation.merged [] = operation :=
  operation.withServers_nil

theorem withServers_withServers (operation : Operation) (first second : List Server) :
    (operation.withServers first).withServers second = operation.withServers (first ++ second) := by
  simp only [withServers, List.append_assoc]

theorem merging_sublist (operation : Operation) (later : List OperationContext) :
    (operation.merging later).Sublist later := by
  induction later generalizing operation with
  | nil => exact .slnil
  | cons context rest inductionHypothesis =>
    unfold merging
    split
    · exact (inductionHypothesis _).cons_cons context
    · exact (inductionHypothesis operation).cons context

end Operation

/-- A shared server is that of the claim, and is not listed yet. -/
theorem Assembly.server_of_sharedServer? {context : OperationContext} {existing : Operation}
    {server : Server} (shared : sharedServer? context existing = some server) :
    context.route.server = some server ∧ server ∉ existing.servers := by
  unfold sharedServer? at shared
  split at shared
  · cases shared
  · next own given =>
    split at shared
    · cases shared
    · next unlisted =>
      have unknown : own ∉ existing.servers := by
        intro member
        exact unlisted (List.contains_iff_mem.mpr member)
      split at shared
      · split at shared
        · cases shared
          exact ⟨given, unknown⟩
        · cases shared
      · cases shared

namespace Operation

theorem server_of_mem_merging {operation : Operation} {later : List OperationContext}
    {context : OperationContext} (member : context ∈ operation.merging later) :
    ∃ server, context.route.server = some server := by
  induction later generalizing operation with
  | nil => cases member
  | cons first rest inductionHypothesis =>
    unfold merging at member
    split at member
    · next server shared =>
      rcases List.mem_cons.mp member with rfl | further
      · exact ⟨server, (Assembly.server_of_sharedServer? shared).1⟩
      · exact inductionHypothesis further
    · exact inductionHypothesis member

theorem mergedServers_cons_of_some {operation : Operation} {context : OperationContext}
    {server : Server} (shared : Assembly.sharedServer? context operation = some server)
    (rest : List OperationContext) :
    operation.mergedServers (context :: rest) =
      server :: (operation.withServers [server]).mergedServers rest := by
  simp only [mergedServers, merging, shared, List.filterMap_cons,
    (Assembly.server_of_sharedServer? shared).1]

theorem mergedServers_cons_of_none {operation : Operation} {context : OperationContext}
    (refused : Assembly.sharedServer? context operation = none) (rest : List OperationContext) :
    operation.mergedServers (context :: rest) = operation.mergedServers rest := by
  simp only [mergedServers, merging, refused]

/-- One more claim adds at most its own server, judged by all servers before it. -/
theorem mergedServers_snoc (operation : Operation) (later : List OperationContext)
    (context : OperationContext) :
    operation.mergedServers (later ++ [context]) =
      operation.mergedServers later ++
        (Assembly.sharedServer? context (operation.merged later)).toList := by
  induction later generalizing operation with
  | nil =>
    rw [merged_nil, List.nil_append]
    cases shared : Assembly.sharedServer? context operation with
    | none => exact mergedServers_cons_of_none shared []
    | some server => exact mergedServers_cons_of_some shared []
  | cons first rest inductionHypothesis =>
    rw [List.cons_append]
    cases shared : Assembly.sharedServer? first operation with
    | none =>
      rw [mergedServers_cons_of_none shared, inductionHypothesis, merged, merged,
        mergedServers_cons_of_none shared]
    | some server =>
      rw [mergedServers_cons_of_some shared, inductionHypothesis, merged, merged,
        mergedServers_cons_of_some shared, withServers_withServers, List.cons_append,
        List.cons_append, List.nil_append]

theorem merged_snoc_of_some {operation : Operation} {later : List OperationContext}
    {context : OperationContext} {server : Server}
    (shared : Assembly.sharedServer? context (operation.merged later) = some server) :
    operation.merged (later ++ [context]) = (operation.merged later).withServers [server] := by
  rw [merged, mergedServers_snoc, shared, Option.toList_some, merged, withServers_withServers]

theorem merged_snoc_of_none {operation : Operation} {later : List OperationContext}
    {context : OperationContext}
    (refused : Assembly.sharedServer? context (operation.merged later) = none) :
    operation.merged (later ++ [context]) = operation.merged later := by
  rw [merged, mergedServers_snoc, refused, Option.toList_none, List.append_nil, merged]

theorem nodup_servers_merged {operation : Operation} (nodup : operation.servers.Nodup)
    (later : List OperationContext) : (operation.merged later).servers.Nodup := by
  induction later generalizing operation with
  | nil =>
    rwa [merged_nil]
  | cons first rest inductionHypothesis =>
    unfold merged
    cases shared : Assembly.sharedServer? first operation with
    | none =>
      rw [mergedServers_cons_of_none shared]
      exact inductionHypothesis nodup
    | some server =>
      have more : (operation.withServers [server]).servers.Nodup := by
        have unlisted := (Assembly.server_of_sharedServer? shared).2
        refine List.nodup_append.mpr ⟨nodup, by simp, ?_⟩
        rintro known member _ same rfl
        rw [List.mem_singleton.mp same] at member
        exact unlisted member
      have all := inductionHypothesis more
      rwa [merged, withServers_withServers, List.singleton_append,
        ← mergedServers_cons_of_some shared] at all

end Operation
/-! ## The account -/

namespace Assembly

/-- The account of a method at a path: nothing without a claim, else the
operation of the first claim with the servers of the later ones, and a warning
for each later claim that added none. -/
def Accounts (assembly : Assembly) (path : String) (method : Method)
    (claims : List OperationContext) : Prop :=
  match claims with
  | [] => assembly.operationsAt path method = [] ∧ assembly.duplicatesAt path method = []
  | first :: later =>
    ∃ operation built dropped, first.build = .ok (operation, built) ∧
      assembly.operationsAt path method = [operation.merged later] ∧
      assembly.duplicatesAt path method =
        List.replicate dropped (.duplicateOperation path method operation.claimedBy) ∧
      dropped + (operation.mergedServers later).length = later.length

variable {before after : Assembly} {path : String} {method : Method}
  {claims : List OperationContext}

theorem Accounts.congr (accounts : before.Accounts path method claims)
    (sameOperations : after.operationsAt path method = before.operationsAt path method)
    (sameDuplicates : after.duplicatesAt path method = before.duplicatesAt path method) :
    after.Accounts path method claims := by
  unfold Accounts
  rw [sameOperations, sameDuplicates]
  exact accounts

theorem Accounts.of_free (accounts : before.Accounts path method claims)
    (free : before.find? path method = none) :
    claims = [] ∧ before.operationsAt path method = [] ∧ before.duplicatesAt path method = [] := by
  rw [find?_eq_head?] at free
  cases claims with
  | nil => exact ⟨rfl, accounts⟩
  | cons first later =>
    obtain ⟨operation, built, dropped, -, one, -⟩ := accounts
    rw [one] at free
    cases free

theorem Accounts.of_found {existing : Operation} (accounts : before.Accounts path method claims)
    (found : before.find? path method = some existing) :
    ∃ first later operation built dropped, claims = first :: later ∧
      first.build = .ok (operation, built) ∧ existing = operation.merged later ∧
      before.operationsAt path method = [operation.merged later] ∧
      before.duplicatesAt path method =
        List.replicate dropped (.duplicateOperation path method operation.claimedBy) ∧
      dropped + (operation.mergedServers later).length = later.length := by
  rw [find?_eq_head?] at found
  cases claims with
  | nil =>
    rw [accounts.1] at found
    cases found
  | cons first later =>
    obtain ⟨operation, built, dropped, succeeded, one, warned, count⟩ := accounts
    rw [one] at found
    cases found
    exact ⟨first, later, operation, built, dropped, rfl, succeeded, rfl, one, warned, count⟩

/-- The settled account of a first claim and all later ones. -/
structure Settles (assembly : Assembly) (path : String) (method : Method)
    (first : OperationContext) (later : List OperationContext) (operation : Operation) : Prop where
  /-- The operation is built from the first claim. -/
  built : ∃ store, first.build = .ok (operation, store)
  documented : assembly.operationsAt path method =
    [{ operation with
        servers := first.route.server.toList ++
          (operation.merging later).filterMap fun context => context.route.server }]
  /-- The merged claims are later claims in their order, and each has a server. -/
  inOrder : (operation.merging later).Sublist later
  served : ∀ context ∈ operation.merging later, ∃ server, context.route.server = some server
  distinct : (first.route.server.toList ++
    (operation.merging later).filterMap fun context => context.route.server).Nodup
  /-- All warnings name the action of the first claim or, without one, the path. -/
  named : ∀ warning ∈ assembly.duplicatesAt path method,
    warning = .duplicateOperation path method (first.route.action.getD path)
  /-- Each later claim has added a server or is warned about. -/
  complete : (assembly.duplicatesAt path method).length +
    ((operation.merging later).filterMap fun context => context.route.server).length =
      later.length

theorem Accounts.settles {first : OperationContext} {later : List OperationContext}
    (accounts : before.Accounts path method (first :: later)) (place : first.fullPath = path) :
    ∃ operation, before.Settles path method first later operation := by
  obtain ⟨operation, store, dropped, succeeded, one, warned, count⟩ := accounts
  obtain ⟨inputs, same, -, -⟩ := OperationContext.build_eq_ok succeeded
  have servers : operation.servers = first.route.server.toList := by
    rw [same, OperationContext.servers_operation]
  have claimedBy : operation.claimedBy = first.route.action.getD path := by
    rw [same, OperationContext.claimedBy_operation, place]
  have single : operation.servers.Nodup := by
    rw [servers]
    cases first.route.server <;> simp
  refine ⟨operation, ⟨store, succeeded⟩, ?_, operation.merging_sublist later,
    fun context => Operation.server_of_mem_merging, ?_, ?_, ?_⟩
  · rw [one, Operation.merged, Operation.withServers, servers]
    rfl
  · have distinct := Operation.nodup_servers_merged single later
    rwa [Operation.merged, Operation.withServers, servers] at distinct
  · intro warning noted
    rw [warned, claimedBy] at noted
    exact List.eq_of_mem_replicate noted
  · rw [warned, List.length_replicate]
    exact count

end Assembly

namespace Claim

variable {claim : Claim} {earlier later : Progress}

theorem collision_of_mem_warnings_unrepeated {contribution : Contribution} {operation : Operation}
    {built : Store} (succeeded : claim.context.build = .ok (operation, built)) :
    ∀ warning ∈ (contribution.unrepeated built).warnings,
      ∃ name, warning = .componentCollision name := by
  intro warning noted
  obtain ⟨_, _, _, rfl⟩ := OperationContext.build_eq_ok succeeded
  rcases Store.collision_of_mem_warnings_record noted with impossible | collision
  · cases impossible
  · exact collision

theorem Step.operationsAt_elsewhere (step : claim.Step earlier later) {path : String}
    {method : Method}
    (elsewhere : ¬(claim.context.fullPath = path ∧ claim.context.method = method)) :
    later.assembly.operationsAt path method = earlier.assembly.operationsAt path method := by
  cases step with
  | share existing server found shared =>
    have reversed : ¬(path = claim.context.fullPath ∧ method = claim.context.method) := by
      rintro ⟨samePath, sameMethod⟩
      exact elsewhere ⟨samePath.symm, sameMethod.symm⟩
    simp only [Assembly.operationsAt_share, if_neg reversed, List.map_id']
  | drop existing found refused => rfl
  | accept operation built free succeeded =>
    rw [Assembly.operationsAt_accept, if_neg elsewhere, List.append_nil]
    rfl

theorem Step.elsewhere (step : claim.Step earlier later)
    (silent : earlier.assembly.store.Silent) {path : String} {method : Method}
    (elsewhere : ¬(claim.context.fullPath = path ∧ claim.context.method = method)) :
    later.assembly.operationsAt path method = earlier.assembly.operationsAt path method ∧
      later.assembly.duplicatesAt path method = earlier.assembly.duplicatesAt path method := by
  refine ⟨step.operationsAt_elsewhere elsewhere, ?_⟩
  cases step with
  | share existing server found shared => rfl
  | drop existing found refused =>
    simp only [Assembly.duplicatesAt_drop, if_neg elsewhere, List.append_nil]
  | accept operation built free succeeded =>
    exact Assembly.duplicatesAt_absorb silent (collision_of_mem_warnings_unrepeated succeeded)
      path method

theorem Step.accounts_self (step : claim.Step earlier later)
    (silent : earlier.assembly.store.Silent) {claims : List OperationContext}
    (accounts : earlier.assembly.Accounts claim.context.fullPath claim.context.method claims) :
    later.assembly.Accounts claim.context.fullPath claim.context.method
      (claims ++ [claim.context]) := by
  cases step with
  | share existing server found shared =>
    obtain ⟨first, rest, operation, built, dropped, rfl, succeeded, rfl, one, warned, count⟩ :=
      accounts.of_found found
    rw [List.cons_append]
    refine ⟨operation, built, dropped, succeeded, ?_, warned, ?_⟩
    · rw [Assembly.operationsAt_share, one, Operation.merged_snoc_of_some shared]
      simp only [List.map_cons, List.map_nil, and_self, if_true]
    · simp only [Operation.mergedServers_snoc, shared, Option.toList_some, List.length_append,
        List.length_singleton]
      omega
  | drop existing found refused =>
    obtain ⟨first, rest, operation, built, dropped, rfl, succeeded, rfl, one, warned, count⟩ :=
      accounts.of_found found
    have unchanged : operation.mergedServers (rest ++ [claim.context]) =
        operation.mergedServers rest := by
      rw [Operation.mergedServers_snoc, refused, Option.toList_none, List.append_nil]
    rw [List.cons_append]
    refine ⟨operation, built, dropped + 1, succeeded, ?_, ?_, ?_⟩
    · rw [Operation.merged_snoc_of_none refused]
      exact one
    · rw [Assembly.duplicatesAt_drop, warned, List.replicate_succ']
      simp only [and_self, if_true]
      rfl
    · rw [unchanged, List.length_append, List.length_singleton]
      omega
  | accept operation built free succeeded =>
    obtain ⟨rfl, none, silentSoFar⟩ := accounts.of_free free
    refine ⟨operation, built, 0, succeeded, ?_, ?_, rfl⟩
    · rw [Assembly.operationsAt_accept]
      have unchanged : (earlier.assembly.absorb
          ((claim.contributed earlier).unrepeated built)).operationsAt
          claim.context.fullPath claim.context.method = [] := none
      simp only [unchanged, and_self, if_true, List.nil_append, List.cons.injEq, and_true]
      exact operation.withServers_nil.symm
    · exact (Assembly.duplicatesAt_absorb silent
        (collision_of_mem_warnings_unrepeated succeeded) _ _).trans silentSoFar

theorem Step.accounts (step : claim.Step earlier later)
    (silent : earlier.assembly.store.Silent) {done : List Claim}
    (accounts : ∀ path method,
      earlier.assembly.Accounts path method (contextsAt done path method))
    (path : String) (method : Method) :
    later.assembly.Accounts path method (contextsAt (done ++ [claim]) path method) := by
  rw [contextsAt_snoc]
  by_cases here : claim.isFor path method = true
  · rw [if_pos here]
    obtain ⟨rfl, rfl⟩ := isFor_eq_true_iff.mp here
    exact step.accounts_self silent (accounts _ _)
  · rw [if_neg here, List.append_nil]
    rw [isFor_eq_true_iff] at here
    obtain ⟨sameOperations, sameDuplicates⟩ := step.elsewhere silent here
    exact (accounts path method).congr sameOperations sameDuplicates

/-- After a run through all claims, each of them stands in its account. -/
theorem run_accounts {claims : List Claim} {begun : Assembly} {reached : Progress}
    (through : run claims (.start begun) = (reached, none)) (silent : begun.store.Silent)
    (accounts : ∀ path method, begun.Accounts path method []) (path : String) (method : Method) :
    reached.assembly.Accounts path method (contextsAt claims path method) := by
  have both := @run_history
    (fun done progress => progress.assembly.store.Silent ∧
      ∀ path method, progress.assembly.Accounts path method (contextsAt done path method))
    claims _ reached through ⟨silent, accounts⟩
    fun done claim _ earlier later step ⟨silentSoFar, accountsSoFar⟩ =>
      ⟨step.silent silentSoFar, step.accounts silentSoFar accountsSoFar⟩
  exact both.2 path method

end Claim

namespace Generator

/-- The claims of a list of routes for a method at a path: those of the
documented routes in the stable order of their paths, each route with its
methods in order. -/
def claimsAt (generator : Generator) (routes : List Route) (path : String) (method : Method) :
    List OperationContext :=
  Claim.contextsAt (generator.claims routes) path method

/-- The claims for a method at a path, in the order in which the routes were given. -/
theorem claimsAt_eq (generator : Generator) (routes : List Route) (path : String)
    (method : Method) :
    generator.claimsAt routes path method =
      ((routes.filter fun route => route.fullPath == path).filter Route.isDocumented).flatMap
        fun route => (route.effectiveMethods.filter (· == method)).map
          (generator.workshop.context route) := by
  rw [claimsAt, claims, Workshop.contextsAt_claims, Route.filter_inPathOrder]

theorem accounts_begun {generator : Generator} {begun : Assembly}
    (started : generator.beginning = .ok begun) (path : String) (method : Method) :
    begun.Accounts path method [] := by
  obtain ⟨none, -, warnings⟩ := beginning_eq_ok started
  constructor
  · simp only [Assembly.operationsAt, none, List.filter_nil, List.map_nil]
  · rw [Assembly.duplicatesAt, warnings]
    unfold baseWarnings
    cases generator.base.get? "openapi" <;> rfl

/-- The account of every successful generation, by whichever generator and however this
has been used before: no operation and no warning where there is no claim, and a settled
account where there are claims.  No warnings ever wait in the store of a generator
(`performAll_silent`). -/
theorem generate_accounts {generator : Generator} (silent : generator.store.Silent)
    {versionText : String} {routes : List Route} {document : Json}
    (succeeded : (generator.generate versionText routes).1 = .ok document) :
    ∃ version assembly,
      Version.ofText? versionText = some version ∧
      generator.assemble routes = .ok (assembly, none) ∧
      document = Document.render version versionText (baseRest generator.base) assembly ∧
      (generator.generate versionText routes).2.warnings = assembly.warnings ∧
      ∀ path method,
        (generator.claimsAt routes path method = [] →
          assembly.operationsAt path method = [] ∧ assembly.duplicatesAt path method = []) ∧
        ∀ first later, generator.claimsAt routes path method = first :: later →
          ∃ operation, assembly.Settles path method first later operation := by
  obtain ⟨version, begun, reached, supported, started, through, rendered, left⟩ :=
    generate_eq_ok succeeded
  have assembled : generator.assemble routes = .ok (reached.assembly, none) := by
    simp only [assemble_eq_run, started, Except.map, through]
  refine ⟨version, reached.assembly, supported, assembled, rendered, by rw [left],
    fun path method => ?_⟩
  have accounts := Claim.run_accounts through (beginning_silent silent started)
    (accounts_begun started) path method
  constructor
  · intro none
    rw [claimsAt] at none
    rwa [none] at accounts
  · intro first later claimed
    have place : first.fullPath = path := Claim.fullPath_of_contextsAt_eq_cons claimed
    rw [claimsAt] at claimed
    rw [claimed] at accounts
    exact accounts.settles place

/-- Two routes that post the same to one path: the account of their claims. -/
theorem generate_accounts_posting :
    ∃ document,
      ((unused {} []).generate "3.0"
        [.posting "a" .text "s1", .posting "a" .text "s2"]).1 = .ok document ∧
      ∃ version assembly operation,
        document = Document.render version "3.0" [] assembly ∧
        assembly.Settles (Route.posting "a" .text "s1").fullPath .post (.posting "a" .text "s1")
          [.posting "a" .text "s2"] operation := by
  have listed : (unused {} []).claims [.posting "a" .text "s1", .posting "a" .text "s2"] =
      [.posting "a" .text "s1"] ++ [.posting "a" .text "s2"] :=
    claims_posting [("a", .text, "s1"), ("a", .text, "s2")]
  obtain ⟨reached, through, found⟩ :=
    Claim.run_posting "a" (MapperTable.convertFields_text "name") "s1"
  obtain ⟨after, ran⟩ : ∃ after, Claim.run ((unused {} []).claims
      [.posting "a" .text "s1", .posting "a" .text "s2"]) (.start {}) = (after, none) := by
    have advanced : (Claim.posting "a" .text "s2").advance reached = .ok _ :=
      Claim.advance_of_found found
    rw [listed, Claim.run_append_of_reached through, Claim.run_cons_of_advance advanced]
    exact ⟨_, rfl⟩
  have succeeded := generate_fst (by decide : Version.ofText? "3.0" = some .v30) rfl ran
  have silent : (unused {} []).store.Silent := rfl
  obtain ⟨version, assembly, -, -, rendered, -, accounts⟩ := generate_accounts silent succeeded
  have claimed : (unused {} []).claimsAt
      [.posting "a" .text "s1", .posting "a" .text "s2"]
      (Route.posting "a" .text "s1").fullPath .post =
        [.posting "a" .text "s1", .posting "a" .text "s2"] := by
    change Claim.contextsAt ((unused {} []).claims _) _ _ = _
    rw [listed]
    have first : (Claim.posting "a" .text "s1").isFor (Route.posting "a" .text "s1").fullPath
        .post = true := Claim.isFor_eq_true_iff.mpr ⟨rfl, rfl⟩
    have second : (Claim.posting "a" .text "s2").isFor (Route.posting "a" .text "s1").fullPath
        .post = true := Claim.isFor_eq_true_iff.mpr ⟨rfl, rfl⟩
    simp only [Claim.contextsAt, List.singleton_append, List.filter, first, second]
    rfl
  obtain ⟨operation, settles⟩ := (accounts _ _).2 _ _ claimed
  exact ⟨_, succeeded, version, assembly, operation, rendered, settles⟩

end Generator
end RouteDocs
