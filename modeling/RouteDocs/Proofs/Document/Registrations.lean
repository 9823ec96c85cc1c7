import RouteDocs.Proofs.Document.ClaimedOnce

namespace RouteDocs

/-!
# What claims register

Tags and servers come into a document with its claims.  The first claim for a method
at a path is accepted: it brings the tags of its operation and the server of its
route.  A later claim brings the server that the operation takes from it, if there is
one, and no tags.

Which claims are accepted and what they bring can be told from the claims alone
(`Claim.accepted`, `Claim.served`), because an operation is built from its own claim
and has the servers that the claims for its place have given it.
`Assembly.Registers` says that an assembly has registered exactly this, and
`Claim.Step.registers` carries it over one step.
-/

namespace Claim

/-- What claims give one after the other, each with the claims that were made before it. -/
def collect {α : Type} (gives : List Claim → Claim → List α) (done claims : List Claim) : List α :=
  match claims with
  | [] => []
  | claim :: rest => gives done claim ++ collect gives (done ++ [claim]) rest

theorem collect_snoc {α : Type} (gives : List Claim → Claim → List α) (done claims : List Claim)
    (claim : Claim) :
    collect gives done (claims ++ [claim]) =
      collect gives done claims ++ gives (done ++ claims) claim := by
  induction claims generalizing done with
  | nil => simp only [List.nil_append, collect, List.append_nil]
  | cons first rest inductionHypothesis =>
    rw [List.cons_append, collect, collect, inductionHypothesis, List.append_assoc,
      List.append_assoc, List.singleton_append]

/-- The claims that were made before a claim at its place. -/
def precedents (done : List Claim) (claim : Claim) : List OperationContext :=
  contextsAt done claim.context.fullPath claim.context.method

/-- The operation that a claim documents, unless there is an earlier claim at its place. -/
def accepts (done : List Claim) (claim : Claim) : List (OperationContext × Operation) :=
  match claim.precedents done with
  | [] => claim.context.built?.toList
  | _ :: _ => []

/-- The server that a claim brings: that of its route when it is the first at its place,
and otherwise the one that the operation of the first claim takes from it. -/
def serves (done : List Claim) (claim : Claim) : List Server :=
  match claim.precedents done with
  | [] => claim.context.route.server.toList
  | first :: later =>
    match first.build with
    | .ok (operation, _) =>
      (Assembly.sharedServer? claim.context (operation.merged later)).toList
    | .error _ => []

/-- The accepted operations of claims, in order. -/
def accepted (claims : List Claim) : List (OperationContext × Operation) :=
  collect accepts [] claims

/-- The servers of the claims that are accepted or give their server away, in order. -/
def served (claims : List Claim) : List Server :=
  collect serves [] claims

variable {done : List Claim} {claim : Claim}

theorem accepted_snoc (done : List Claim) (claim : Claim) :
    accepted (done ++ [claim]) = accepted done ++ claim.accepts done :=
  collect_snoc accepts [] done claim

theorem served_snoc (done : List Claim) (claim : Claim) :
    served (done ++ [claim]) = served done ++ claim.serves done :=
  collect_snoc serves [] done claim

theorem accepted_snoc_of_first (first : claim.precedents done = []) {operation : Operation}
    {built : Store} (succeeded : claim.context.build = .ok (operation, built)) :
    accepted (done ++ [claim]) = accepted done ++ [(claim.context, operation)] := by
  rw [accepted_snoc]
  simp only [accepts, first, OperationContext.built?, succeeded, Option.toList_some]

theorem serves_of_first (first : claim.precedents done = []) :
    claim.serves done = claim.context.route.server.toList := by
  simp only [serves, first]

/-- A later claim at a place adds no operation. -/
theorem accepted_snoc_of_later {first : OperationContext} {later : List OperationContext}
    (claimed : claim.precedents done = first :: later) :
    accepted (done ++ [claim]) = accepted done := by
  rw [accepted_snoc]
  simp only [accepts, claimed, List.append_nil]

theorem serves_of_later {first : OperationContext} {later : List OperationContext}
    (claimed : claim.precedents done = first :: later) {operation : Operation} {built : Store}
    (succeeded : first.build = .ok (operation, built)) :
    claim.serves done =
      (Assembly.sharedServer? claim.context (operation.merged later)).toList := by
  simp only [serves, claimed, succeeded]

end Claim

/-! ## What has been registered -/

/-- An entry of the document shows an accepted operation, which may have taken further
servers. -/
structure Documented.Keeps (entry : Documented) (made : OperationContext × Operation) : Prop where
  path : entry.path = made.1.fullPath
  method : entry.method = made.1.method
  operation : ∃ servers, entry.operation = made.2.withServers servers

namespace Assembly

/-- At a place stands the operation of the first claim, with the servers of later ones. -/
def StandsAt (assembly : Assembly) (path : String) (method : Method)
    (claims : List OperationContext) : Prop :=
  match claims with
  | [] => assembly.operationsAt path method = []
  | first :: later => ∃ operation built, first.build = .ok (operation, built) ∧
      assembly.operationsAt path method = [operation.merged later]

/-- The addresses that the documented operations list. -/
def operationUrls (assembly : Assembly) : List String :=
  assembly.documented.flatMap fun entry => entry.operation.servers.map Server.url

/-- What an assembly has registered of claims, beginning with another assembly. -/
structure Registers (reached begun : Assembly) (done : List Claim) : Prop where
  stands : ∀ path method, reached.StandsAt path method (Claim.contextsAt done path method)
  documented : List.Forall₂ Documented.Keeps reached.documented (Claim.accepted done)
  tags : reached.tags = ((Claim.accepted done).flatMap Tag.broughtBy).foldl Tag.register begun.tags
  servers : reached.servers = (Claim.served done).foldl Server.register begun.servers
  urls : ∀ url, url ∈ reached.servers.map Server.url ↔
    url ∈ begun.servers.map Server.url ∨ url ∈ reached.operationUrls

variable {assembly : Assembly} {path : String} {method : Method} {claims : List OperationContext}

theorem StandsAt.of_free (stands : assembly.StandsAt path method claims)
    (free : assembly.find? path method = none) : claims = [] := by
  rw [find?_eq_head?] at free
  cases claims with
  | nil => rfl
  | cons first later =>
    rcases stands with ⟨operation, built, -, one⟩
    rw [one] at free
    cases free

theorem StandsAt.of_found (stands : assembly.StandsAt path method claims) {existing : Operation}
    (found : assembly.find? path method = some existing) :
    ∃ first later operation built, claims = first :: later ∧
      first.build = .ok (operation, built) ∧ existing = operation.merged later ∧
      assembly.operationsAt path method = [operation.merged later] := by
  rw [find?_eq_head?] at found
  cases claims with
  | nil =>
    rw [show assembly.operationsAt path method = [] from stands] at found
    cases found
  | cons first later =>
    rcases stands with ⟨operation, built, succeeded, one⟩
    rw [one] at found
    cases found
    exact ⟨first, later, operation, built, rfl, succeeded, rfl, one⟩

/-! ### One more server -/

theorem mem_operationUrls {url : String} :
    url ∈ assembly.operationUrls ↔
      ∃ entry ∈ assembly.documented, url ∈ entry.operation.servers.map Server.url :=
  List.mem_flatMap

/-- An entry stays the same entry when a server is shared. -/
theorem keeps_share {accepted : List (OperationContext × Operation)}
    (documented : List.Forall₂ Documented.Keeps assembly.documented accepted) (path : String)
    (method : Method) (server : Server) :
    List.Forall₂ Documented.Keeps (assembly.share path method server).documented accepted := by
  refine List.forall₂_map_left_iff.mpr (documented.imp fun entry made keeps => ?_)
  rcases keeps.operation with ⟨servers, same⟩
  split
  · refine ⟨keeps.path, keeps.method, servers ++ [server], ?_⟩
    rw [← Operation.withServers_withServers, ← same]
    rfl
  · exact keeps

/-- The shared server is the only one that the operations list more than before. -/
theorem mem_operationUrls_share {existing : Operation}
    (found : assembly.find? path method = some existing) (server : Server) {url : String} :
    url ∈ (assembly.share path method server).operationUrls ↔
      url ∈ assembly.operationUrls ∨ url = server.url := by
  rw [mem_operationUrls, mem_operationUrls]
  constructor
  · rintro ⟨entry, member, listed⟩
    rcases List.mem_map.mp member with ⟨before, present, rfl⟩
    split at listed
    · rw [List.map_append, List.mem_append] at listed
      rcases listed with known | added
      · exact Or.inl ⟨before, present, known⟩
      · exact Or.inr (List.mem_singleton.mp added)
    · exact Or.inl ⟨before, present, listed⟩
  · rintro (⟨entry, present, listed⟩ | rfl)
    · refine ⟨_, List.mem_map_of_mem present, ?_⟩
      split
      · rw [List.map_append]
        exact List.mem_append_left _ listed
      · exact listed
    · rcases Option.map_eq_some_iff.mp found with ⟨entry, first, -⟩
      refine ⟨_, List.mem_map_of_mem (List.mem_of_find?_eq_some first), ?_⟩
      rw [if_pos (List.find?_some first), List.map_append]
      exact List.mem_append_right _ (List.mem_singleton_self _)

theorem mem_operationUrls_accept (context : OperationContext) (operation : Operation)
    {url : String} :
    url ∈ (assembly.accept context operation).operationUrls ↔
      url ∈ assembly.operationUrls ∨ url ∈ operation.servers.map Server.url := by
  rw [operationUrls, accept, List.flatMap_append, List.mem_append, List.flatMap_singleton]
  rfl

end Assembly

namespace Claim

variable {claim : Claim} {earlier later : Progress} {begun : Assembly} {done : List Claim}

theorem Step.stands (step : claim.Step earlier later)
    (stands : ∀ path method,
      earlier.assembly.StandsAt path method (contextsAt done path method))
    (path : String) (method : Method) :
    later.assembly.StandsAt path method (contextsAt (done ++ [claim]) path method) := by
  rw [contextsAt_snoc]
  by_cases here : claim.isFor path method = true
  · rw [if_pos here]
    rcases isFor_eq_true_iff.mp here with ⟨rfl, rfl⟩
    cases step with
    | share existing server found shared =>
      rcases (stands _ _).of_found found with
        ⟨first, rest, operation, built, claimed, succeeded, rfl, one⟩
      rw [claimed, List.cons_append]
      refine ⟨operation, built, succeeded, ?_⟩
      rw [Assembly.operationsAt_share, one, Operation.merged_snoc_of_some shared]
      simp only [List.map_cons, List.map_nil, and_self, if_true]
    | drop existing found refused =>
      rcases (stands _ _).of_found found with
        ⟨first, rest, operation, built, claimed, succeeded, rfl, one⟩
      rw [claimed, List.cons_append]
      refine ⟨operation, built, succeeded, ?_⟩
      rw [Operation.merged_snoc_of_none refused]
      exact one
    | accept operation built free succeeded =>
      have none := (stands _ _).of_free free
      have nothing := stands claim.context.fullPath claim.context.method
      rw [none] at nothing ⊢
      have before : (earlier.assembly.absorb
          ((claim.contributed earlier).unrepeated built)).operationsAt
          claim.context.fullPath claim.context.method = [] := nothing
      refine ⟨operation, built, succeeded, ?_⟩
      rw [Assembly.operationsAt_accept, before, operation.merged_nil]
      simp only [and_self, if_true, List.nil_append]
  · rw [if_neg here, List.append_nil]
    rw [isFor_eq_true_iff] at here
    have same := step.operationsAt_elsewhere here
    have before := stands path method
    unfold Assembly.StandsAt at before ⊢
    rw [same]
    exact before

/-- One step registers what its claim brings. -/
theorem Step.registers (step : claim.Step earlier later)
    (registers : earlier.assembly.Registers begun done) :
    later.assembly.Registers begun (done ++ [claim]) := by
  have stands := step.stands registers.stands
  cases step with
  | share existing server found shared =>
    rcases (registers.stands _ _).of_found found with
      ⟨first, rest, operation, built, claimed, succeeded, rfl, -⟩
    have accepted := accepted_snoc_of_later claimed
    have served : served (done ++ [claim]) = Claim.served done ++ [server] := by
      rw [served_snoc, serves_of_later claimed succeeded, shared, Option.toList_some]
    exact
      { stands := stands
        documented := by
          rw [accepted]
          exact Assembly.keeps_share registers.documented _ _ server
        tags := by
          rw [accepted]
          exact registers.tags
        servers := by
          rw [served, List.foldl_append, ← registers.servers]
          rfl
        urls := by
          intro url
          rw [Assembly.mem_operationUrls_share found, ← or_assoc, ← registers.urls]
          change url ∈ (Server.register _ server).map Server.url ↔ _
          rw [Server.urls_register, mem_addName] }
  | drop existing found refused =>
    rcases (registers.stands _ _).of_found found with
      ⟨first, rest, operation, built, claimed, succeeded, rfl, -⟩
    have accepted := accepted_snoc_of_later claimed
    have served : served (done ++ [claim]) = Claim.served done := by
      rw [served_snoc, serves_of_later claimed succeeded, refused, Option.toList_none,
        List.append_nil]
    exact
      { stands := stands
        documented := by
          rw [accepted]
          exact registers.documented
        tags := by
          rw [accepted]
          exact registers.tags
        servers := by
          rw [served]
          exact registers.servers
        urls := registers.urls }
  | accept operation built free succeeded =>
    have first : claim.precedents done = [] := (registers.stands _ _).of_free free
    have accepted := accepted_snoc_of_first first succeeded
    have served : served (done ++ [claim]) =
        Claim.served done ++ claim.context.route.server.toList := by
      rw [served_snoc, serves_of_first first]
    have servers : operation.servers = claim.context.route.server.toList := by
      rcases OperationContext.build_eq_ok succeeded with ⟨inputs, same, -, -⟩
      rw [same, OperationContext.servers_operation]
    exact
      { stands := stands
        documented := by
          rw [accepted]
          refine List.rel_append registers.documented (.cons ⟨rfl, rfl, [], ?_⟩ .nil)
          exact operation.withServers_nil.symm
        tags := by
          rw [accepted, List.flatMap_append, List.foldl_append, ← registers.tags,
            List.flatMap_singleton]
          rfl
        servers := by
          rw [served, List.foldl_append, ← registers.servers]
          rfl
        urls := by
          intro url
          rw [Assembly.mem_operationUrls_accept, servers]
          change url ∈ (List.foldl Server.register earlier.assembly.servers _).map Server.url ↔
            _ ∨ url ∈ earlier.assembly.operationUrls ∨ _
          rw [Server.urls_registerAll, mem_foldl_addName, ← or_assoc, ← registers.urls] }

/-- A run registers what its claims bring, one after the other. -/
theorem run_registers {claims : List Claim} {begun : Assembly} {reached : Progress}
    (through : run claims (.start begun) = (reached, none)) (empty : begun.documented = []) :
    reached.assembly.Registers begun claims := by
  refine @run_history (fun done progress => progress.assembly.Registers begun done) claims _
    reached through ?_ fun done claim _ earlier later step registers => step.registers registers
  exact
    { stands := by
        intro path method
        change List.map _ (List.filter _ begun.documented) = []
        rw [empty]
        rfl
      documented := by
        change List.Forall₂ _ begun.documented []
        rw [empty]
        exact .nil
      tags := rfl
      servers := rfl
      urls := by
        intro url
        change _ ↔ _ ∨ url ∈ List.flatMap _ begun.documented
        rw [empty, List.flatMap_nil]
        exact ⟨Or.inl, fun either => either.resolve_right List.not_mem_nil⟩ }

end Claim

/-! ## The lists of a document -/

/-- A tag and a server are written as a text with its description, under ordinary keys. -/
theorem Json.withoutReserved_described {key : String} (ordinary : isReserved key = false)
    (text : String) (description : Option String) :
    withoutReserved (.object (ofOptional
        [(key, some (.text text)), ("description", description.map .text)])) =
      .object (ofOptional [(key, some (.text text)), ("description", description.map .text)]) := by
  have other : isReserved "description" = false := by decide
  cases description <;>
    simp [ofOptional, withoutReserved, withoutReservedEntries, ordinary, other]

namespace Document

/-- What is read from the base is not taken over as well. -/
theorem get?_own_baseRest {base : Entries Json} (distinct : base.names.Nodup) {name : String}
    (read : name = "tags" ∨ name = "servers") :
    (own (Generator.baseRest base)).get? name = none := by
  have first := (Entries.nodup_names_swapErase distinct "openapi").1
  rcases Entries.nodup_names_swapErase first "tags" with ⟨second, noTags⟩
  rcases Entries.nodup_names_swapErase second "servers" with ⟨-, noServers⟩
  cases found : (own (Generator.baseRest base)).get? name with
  | none => rfl
  | some value =>
    have inOwn := Entries.mem_of_get?_eq_some found
    have inRest : (name, value) ∈ Generator.baseRest base :=
      Entries.mem_of_mem_swapErase (Entries.mem_of_mem_swapErase inOwn)
    rcases read with rfl | rfl
    · have before := Entries.mem_of_mem_swapErase inRest
      exact absurd (Entries.mem_names_of_mem before) noTags
    · exact absurd (Entries.mem_names_of_mem inRest) noServers

/-- A generated list of things without reserved keys stands in the document as it is. -/
theorem field?_list {α : Type} {base : Entries Json} (distinct : base.names.Nodup)
    {name : String} (read : name = "tags" ∨ name = "servers") {toJson : α → Json}
    (plain : ∀ value, (toJson value).withoutReserved = toJson value) {values : List α}
    {version : Version} {assembly : Assembly}
    (generated : (generatedParts version (Generator.baseRest base) assembly).get? name =
      some (.list (values.map toJson))) (versionText : String) :
    (render version versionText (Generator.baseRest base) assembly).field? name =
      some (.list (values.map toJson)) := by
  have ordinary : isReserved name = false := by rcases read with rfl | rfl <;> decide
  have other : name ≠ "openapi" := by rcases read with rfl | rfl <;> decide
  rw [field?_render version versionText _ assembly ordinary other, get?_own_baseRest distinct read,
    generated, Option.none_or, Option.map_some, Json.withoutReserved_list, List.map_map]
  congr 2
  exact List.map_congr_left fun value _ => plain value

end Document

namespace Generator

/-- The operations that a generation accepts, in the order of its claims. -/
def accepted (generator : Generator) (routes : List Route) : List (OperationContext × Operation) :=
  Claim.accepted (generator.claims routes)

/-- The servers that a generation is given by the claims that it accepts and by those
whose server goes to an earlier operation, in their order. -/
def served (generator : Generator) (routes : List Route) : List Server :=
  Claim.served (generator.claims routes)

/-- A generation begins with the tags and the servers of the base. -/
theorem lists_of_beginning {generator : Generator} {begun : Assembly}
    (started : generator.beginning = .ok begun) :
    ∃ tags servers, baseList Tag.read generator.base "tags" = .ok tags ∧
      baseList Server.read generator.base "servers" = .ok servers ∧
        begun.tags = tags.foldl Tag.register [] ∧
          begun.servers = servers.foldl Server.register [] := by
  rcases Except.eq_ok_of_map_eq_ok started with ⟨parts, read, rfl⟩
  rcases Except.eq_ok_of_bind_eq_ok read with ⟨tags, ofTags, afterTags⟩
  rcases Except.eq_ok_of_bind_eq_ok afterTags with ⟨servers, ofServers, same⟩
  cases same
  exact ⟨tags, servers, ofTags, ofServers, rfl, rfl⟩

end Generator
end RouteDocs
