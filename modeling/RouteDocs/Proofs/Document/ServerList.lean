import RouteDocs.Proofs.Document.Registrations
import RouteDocs.Proofs.Document.SharedServers

namespace RouteDocs

/-!
# The servers of a document

Operations tell servers apart by address and description, the list of the document by
the address alone.  Both lists grow together: a claim that is accepted brings the server
of its route into both, and so does a claim whose server goes to an earlier operation.
So the addresses in the document are those of the base and of the operations, each once,
in the order in which they came up first.
-/

namespace Server

/-- The servers that are the first with their address. -/
def firstOfEach (servers : List Server) : List Server :=
  match servers with
  | [] => []
  | server :: rest =>
    server :: (firstOfEach rest).filter fun other => decide (other.url ≠ server.url)

/-- The servers whose address is not among the given ones. -/
def outside (urls : List String) (servers : List Server) : List Server :=
  servers.filter fun server => decide (server.url ∉ urls)

theorem register_of_known {servers : List Server} {server : Server}
    (known : server.url ∈ servers.map url) : register servers server = servers := by
  rcases List.mem_map.mp known with ⟨listed, member, same⟩
  refine if_pos (List.any_eq_true.mpr ⟨listed, member, ?_⟩)
  exact beq_iff_eq.mpr same

theorem register_of_new {servers : List Server} {server : Server}
    (new : server.url ∉ servers.map url) : register servers server = servers ++ [server] := by
  refine if_neg fun found => new ?_
  rcases List.any_eq_true.mp found with ⟨listed, member, same⟩
  exact List.mem_map.mpr ⟨listed, member, beq_iff_eq.mp same⟩

theorem outside_cons_of_known {urls : List String} {server : Server} (known : server.url ∈ urls)
    (rest : List Server) :
    outside urls (firstOfEach (server :: rest)) = outside urls (firstOfEach rest) := by
  rw [firstOfEach, outside, List.filter_cons_of_neg (by simpa using known), List.filter_filter]
  refine List.filter_congr fun other _ => ?_
  by_cases listed : other.url ∈ urls
  · simp [listed]
  · have different : other.url ≠ server.url := fun same => listed (same ▸ known)
    simp [listed, different]

theorem outside_cons_of_new {urls : List String} {server : Server} (new : server.url ∉ urls)
    (rest : List Server) :
    outside urls (firstOfEach (server :: rest)) =
      server :: outside (urls ++ [server.url]) (firstOfEach rest) := by
  rw [firstOfEach, outside, List.filter_cons_of_pos (by simpa using new), List.filter_filter,
    outside]
  congr 1
  refine List.filter_congr fun other _ => ?_
  simp only [List.mem_append, List.mem_singleton, not_or, Bool.decide_and, ne_eq]

/-- Registering servers adds the first of each new address. -/
theorem registerAll_eq (servers more : List Server) :
    more.foldl register servers = servers ++ outside (servers.map url) (firstOfEach more) := by
  induction more generalizing servers with
  | nil => exact (List.append_nil servers).symm
  | cons server rest inductionHypothesis =>
    rw [List.foldl_cons, inductionHypothesis]
    by_cases known : server.url ∈ servers.map url
    · rw [register_of_known known, outside_cons_of_known known]
    · rw [register_of_new known, outside_cons_of_new known, List.map_append, List.append_assoc]
      rfl

theorem registerAll_nil (servers : List Server) :
    servers.foldl register [] = firstOfEach servers := by
  rw [registerAll_eq, List.nil_append]
  exact List.filter_eq_self.mpr fun _ _ => decide_eq_true List.not_mem_nil

theorem firstOfEach_append (servers more : List Server) :
    firstOfEach (servers ++ more) =
      firstOfEach servers ++ outside ((firstOfEach servers).map url) (firstOfEach more) := by
  rw [← registerAll_nil, List.foldl_append, registerAll_eq, registerAll_nil]

theorem nodup_urls_firstOfEach (servers : List Server) :
    ((firstOfEach servers).map url).Nodup := by
  rw [← registerAll_nil, urls_registerAll]
  exact nodup_foldl_addName List.nodup_nil _

theorem mem_urls_firstOfEach {servers : List Server} {address : String} :
    address ∈ (firstOfEach servers).map url ↔ address ∈ servers.map url := by
  rw [← registerAll_nil, urls_registerAll, mem_foldl_addName]
  exact or_iff_right List.not_mem_nil

end Server

theorem Document.field?_servers {base : Entries Json} (distinct : base.names.Nodup)
    (version : Version) (versionText : String) (assembly : Assembly) :
    (render version versionText (Generator.baseRest base) assembly).field? "servers" =
      some (.list (assembly.servers.map Server.toJson)) :=
  field?_list distinct (Or.inr rfl)
    (fun server => Json.withoutReserved_described (by decide) server.url server.description) rfl
    versionText

namespace Generator

/-- The servers of a document are, for each address, the first one among those of the base
and those that claims brought, in this order; so those of the base come first.  No address
is there twice, and the addresses are those of the base and of the documented operations. -/
theorem servers_are_served (generator : Generator) (distinct : generator.base.names.Nodup)
    {versionText : String} {routes : List Route} {document : Json}
    (succeeded : (generator.generate versionText routes).1 = .ok document) :
    ∃ (assembly : Assembly) (given servers : List Server),
      generator.assemble routes = .ok (assembly, none) ∧
      List.Forall₂ Documented.Keeps assembly.documented (generator.accepted routes) ∧
      baseList Server.read generator.base "servers" = .ok given ∧
      document.field? "servers" = some (.list (servers.map Server.toJson)) ∧
      servers = Server.firstOfEach (given ++ generator.served routes) ∧
      Server.firstOfEach given <+: servers ∧
      (servers.map Server.url).Nodup ∧
      ∀ url, url ∈ servers.map Server.url ↔ url ∈ given.map Server.url ∨
        ∃ entry ∈ assembly.documented, url ∈ entry.operation.servers.map Server.url := by
  rcases generate_eq_ok succeeded with ⟨version, begun, reached, -, started, through, rfl, -⟩
  rcases lists_of_beginning started with ⟨-, given, -, read, -, begunServers⟩
  have registers := Claim.run_registers through (beginning_eq_ok started).1
  have assembled := assemble_of_run started through
  have served : reached.assembly.servers =
      Server.firstOfEach (given ++ generator.served routes) := by
    rw [registers.servers, begunServers, ← List.foldl_append]
    exact Server.registerAll_nil _
  refine ⟨reached.assembly, given, reached.assembly.servers, assembled, registers.documented, read,
    Document.field?_servers distinct version versionText _, served, ?_, ?_, fun url => ?_⟩
  · rw [served, Server.firstOfEach_append]
    exact List.prefix_append _ _
  · rw [served]
    exact Server.nodup_urls_firstOfEach _
  · rw [registers.urls, begunServers, Server.registerAll_nil, Server.mem_urls_firstOfEach,
      Assembly.mem_operationUrls]

/-- Of two routes that post the same to one path, the second one gives its server away. -/
theorem served_posting :
    (unused {} []).served [.posting "a" .text "s1", .posting "a" .text "s2"] =
      [{ url := "s1" }, { url := "s2" }] := by
  have claims : (unused {} []).claims [.posting "a" .text "s1", .posting "a" .text "s2"] =
      [.posting "a" .text "s1", .posting "a" .text "s2"] :=
    claims_posting [("a", .text, "s1"), ("a", .text, "s2")]
  have built := fun url =>
    OperationContext.build_posting "a" (MapperTable.convertFields_text "name") url
  have here : (Claim.posting "a" .text "s1").isFor
      (Claim.posting "a" .text "s2").context.fullPath .post = true :=
    Claim.isFor_eq_true_iff.mpr ⟨rfl, rfl⟩
  have claimed : (Claim.posting "a" .text "s2").precedents [.posting "a" .text "s1"] =
      [.posting "a" .text "s1"] :=
    congrArg (List.map Claim.context) (List.filter_cons_of_pos here)
  rcases run_posting_text with ⟨-, -, -, unlisted⟩
  have shared : Assembly.sharedServer? (Claim.posting "a" .text "s2").context
      ((Operation.posting "a" .text "s1" (.requiredOf .string)).merged []) =
        some { url := "s2" } :=
    Claim.sharedServer?_of_sameDefinition rfl unlisted (built "s2")
      (OperationContext.sameDefinition_posting _ _ _ _ _ _)
  rw [served, claims, Claim.served, Claim.collect, Claim.collect, Claim.collect,
    Claim.serves_of_first rfl, List.nil_append, Claim.serves_of_later claimed (built "s1"), shared]
  rfl

theorem servers_are_served_posting :
    ∃ document,
      ((unused {} []).generate "3.0"
        [.posting "a" .text "s1", .posting "a" .text "s2"]).1 = .ok document ∧
      document.field? "servers" = some (.list
        [Server.toJson { url := "s1" }, Server.toJson { url := "s2" }]) := by
  have claims : (unused {} []).claims [.posting "a" .text "s1", .posting "a" .text "s2"] =
      [.posting "a" .text "s1", .posting "a" .text "s2"] :=
    claims_posting [("a", .text, "s1"), ("a", .text, "s2")]
  have builds : ∀ claim ∈ (unused {} []).claims
      [.posting "a" .text "s1", .posting "a" .text "s2"],
      ∃ operation built, claim.context.build = .ok (operation, built) := by
    rw [claims]
    have built := fun url =>
      OperationContext.build_posting "a" (MapperTable.convertFields_text "name") url
    exact List.forall_mem_cons.mpr ⟨⟨_, _, built "s1"⟩,
      List.forall_mem_singleton.mpr ⟨_, _, built "s2"⟩⟩
  rcases Claim.run_of_builds builds (.start {}) with ⟨reached, through⟩
  have succeeded := generate_fst (by decide : Version.ofText? "3.0" = some .v30) rfl through
  rcases servers_are_served (unused {} []) List.nodup_nil succeeded with
    ⟨assembly, given, servers, -, -, read, shown, listed, -⟩
  cases (show baseList Server.read [] "servers" = .ok [] from rfl).symm.trans read
  rw [served_posting] at listed
  rw [listed] at shown
  exact ⟨_, succeeded, shown⟩

end Generator
end RouteDocs
