import RouteDocs.Proofs.Document.Account
import RouteDocs.Proofs.Document.References
import RouteDocs.Proofs.Schema.Same

namespace RouteDocs

/-!
# When a later claim only adds a server

A later claim should add its server only when it documents exactly the
operation that is there, the components behind its references included, and
should be dropped with a warning otherwise.  The comparison of operations,
however, stops at the references: it compares the names of components.  The
components themselves are built again for the later claim and thrown away.
`later_claim_followsRule_iff` says for which claims the rule is kept all the same.
-/

/-- The components that an operation stands for: those that it refers to, and
those that these refer to in turn. -/
inductive Store.Reaches (store : Store) (operation : Operation) : String → Prop where
  | direct {target : String} (refers : operation.RefersTo target) : Reaches store operation target
  | further {name target : String} (reached : Reaches store operation name)
      (refers : store.RefersTo name target) : Reaches store operation target

/-- Every component that an operation stands for is the same in another store. -/
def Store.SameBehind (store other : Store) (operation : Operation) : Prop :=
  ∀ name, store.Reaches operation name →
    ∃ object known, store.get? name = some object ∧ other.get? name = some known ∧
      known.same object = true

namespace OperationContext

/-- The later claim builds the operation of the first one in everything except
the servers, with the same components behind its references. -/
def SameMeaning (first later : OperationContext) : Prop :=
  ∃ operation stored repeated restored, first.build = .ok (operation, stored) ∧
    later.build = .ok (repeated, restored) ∧ operation.sameDefinition repeated = true ∧
    restored.SameBehind stored repeated

/-- The later claim builds an operation that compares as the same, but one of
the components behind its references is another one. -/
def SameInNameOnly (first later : OperationContext) : Prop :=
  ∃ operation stored repeated restored, first.build = .ok (operation, stored) ∧
    later.build = .ok (repeated, restored) ∧ operation.sameDefinition repeated = true ∧
    ¬restored.SameBehind stored repeated

/-- A claim is built in one way only, so it cannot be both. -/
theorem SameInNameOnly.not_sameMeaning {first later : OperationContext}
    (inName : first.SameInNameOnly later) : ¬first.SameMeaning later := by
  rintro ⟨operation, stored, repeated, restored, built, again, -, behind⟩
  obtain ⟨known, knownStored, other, others, knownBuilt, otherBuilt, -, differs⟩ := inName
  rw [built] at knownBuilt
  rw [again] at otherBuilt
  cases knownBuilt
  cases otherBuilt
  exact differs behind

end OperationContext

namespace Claim

def sharing (claim : Claim) (before : Progress) (server : Server) : Progress where
  contribution := claim.contributed before
  assembly := before.assembly.share claim.context.fullPath claim.context.method server

def dropping (claim : Claim) (before : Progress) (claimedBy : String) : Progress where
  contribution := claim.contributed before
  assembly := before.assembly.drop claim.context.fullPath claim.context.method claimedBy

/-- The rule for a claim with a server that the operation does not list yet. -/
structure FollowsRule (claim : Claim) (first : OperationContext) (before : Progress)
    (server : Server) : Prop where
  shares : first.SameMeaning claim.context →
    claim.advance before = .ok (claim.sharing before server)
  drops : ¬first.SameMeaning claim.context →
    claim.advance before =
      .ok (claim.dropping before (first.route.action.getD claim.context.fullPath))

theorem sharing_ne_dropping (claim : Claim) (before : Progress) (server : Server)
    (claimedBy : String) : claim.sharing before server ≠ claim.dropping before claimedBy := by
  intro same
  have lengths := congrArg (fun reached : Progress => reached.assembly.warnings.length) same
  simp [sharing, dropping, Assembly.share, Assembly.drop] at lengths

variable {claim : Claim} {before : Progress} {first : OperationContext} {operation : Operation}
  {stored : Store} {rest : List OperationContext} {server : Server}

/-- The operation takes the server of a claim that defines the same. -/
theorem sharedServer?_of_sameDefinition (given : claim.context.route.server = some server)
    (unlisted : server ∉ (operation.merged rest).servers) {repeated : Operation}
    {restored : Store} (succeeded : claim.context.build = .ok (repeated, restored))
    (same : operation.sameDefinition repeated = true) :
    Assembly.sharedServer? claim.context (operation.merged rest) = some server := by
  have judged : (operation.merged rest).sameDefinition repeated = true := same
  have unknown : ¬(operation.merged rest).servers.contains server = true := fun listed =>
    unlisted (List.contains_iff_mem.mp listed)
  simp only [Assembly.sharedServer?, given, if_neg unknown, succeeded, if_pos judged]

theorem advance_of_sameDefinition
    (found : before.assembly.find? claim.context.fullPath claim.context.method =
      some (operation.merged rest))
    (given : claim.context.route.server = some server)
    (unlisted : server ∉ (operation.merged rest).servers) {repeated : Operation}
    {restored : Store} (succeeded : claim.context.build = .ok (repeated, restored))
    (same : operation.sameDefinition repeated = true) :
    claim.advance before = .ok (claim.sharing before server) := by
  rw [advance_of_found found, sharedServer?_of_sameDefinition given unlisted succeeded same]
  rfl

theorem advance_of_not_sameDefinition
    (found : before.assembly.find? claim.context.fullPath claim.context.method =
      some (operation.merged rest))
    (differs : ∀ repeated restored, claim.context.build = .ok (repeated, restored) →
      ¬operation.sameDefinition repeated = true) :
    claim.advance before = .ok (claim.dropping before operation.claimedBy) := by
  have refused : Assembly.sharedServer? claim.context (operation.merged rest) = none := by
    unfold Assembly.sharedServer?
    split
    · rfl
    · split
      · rfl
      · split
        · next repeated restored succeeded =>
          have judged : ¬(operation.merged rest).sameDefinition repeated = true :=
            differs repeated restored succeeded
          rw [if_neg judged]
        · rfl
  rw [advance_of_found found, refused]
  rfl

theorem followsRule_iff (built : first.build = .ok (operation, stored))
    (place : first.fullPath = claim.context.fullPath)
    (found : before.assembly.find? claim.context.fullPath claim.context.method =
      some (operation.merged rest))
    (given : claim.context.route.server = some server)
    (unlisted : server ∉ (operation.merged rest).servers) :
    claim.FollowsRule first before server ↔ ¬first.SameInNameOnly claim.context := by
  have claimedBy : operation.claimedBy = first.route.action.getD claim.context.fullPath := by
    obtain ⟨inputs, same, -, -⟩ := OperationContext.build_eq_ok built
    rw [same, OperationContext.claimedBy_operation, place]
  have only : ∀ known behind, first.build = .ok (known, behind) →
      known = operation ∧ behind = stored := by
    intro known behind again
    rw [built] at again
    cases again
    exact ⟨rfl, rfl⟩
  constructor
  · intro rule inName
    have dropped := rule.drops inName.not_sameMeaning
    obtain ⟨known, behind, repeated, restored, again, succeeded, same, -⟩ := inName
    obtain ⟨rfl, rfl⟩ := only known behind again
    rw [advance_of_sameDefinition found given unlisted succeeded same] at dropped
    exact claim.sharing_ne_dropping before server _ (Except.ok.inj dropped)
  · intro neverInName
    constructor
    · rintro ⟨known, behind, repeated, restored, again, succeeded, same, -⟩
      obtain ⟨rfl, rfl⟩ := only known behind again
      exact advance_of_sameDefinition found given unlisted succeeded same
    · intro notSame
      rw [← claimedBy]
      apply advance_of_not_sameDefinition found
      intro repeated restored succeeded same
      by_cases behindSame : restored.SameBehind stored repeated
      · exact notSame ⟨operation, stored, repeated, restored, built, succeeded, same, behindSame⟩
      · exact neverInName
          ⟨operation, stored, repeated, restored, built, succeeded, same, behindSame⟩

end Claim

namespace Generator

/-- After the route that posts a text, routes with another server find its operation. -/
theorem run_posting_text :
    ∃ reached, Claim.run [.posting "a" .text "s1"] (.start {}) = (reached, none) ∧
      (∀ rule, reached.assembly.find? (Claim.posting "a" rule "s2").context.fullPath
        (Claim.posting "a" rule "s2").context.method =
          some ((Operation.posting "a" .text "s1" (.requiredOf .string)).merged [])) ∧
      { url := "s2" } ∉
        ((Operation.posting "a" .text "s1" (.requiredOf .string)).merged []).servers := by
  obtain ⟨reached, through, accepted⟩ :=
    Claim.run_posting "a" (MapperTable.convertFields_text "name") "s1"
  refine ⟨reached, through, fun rule => ?_, ?_⟩
  · rw [Operation.merged_nil]
    exact accepted
  · rw [Operation.merged_nil, Operation.posting, OperationContext.servers_operation]
    decide

/-- In every generation, by whichever generator and however this has been used before, a
later claim with a server that is not listed yet keeps to the rule exactly when it is not
the same as the accepted claim in name only.  It never ends the generation. -/
theorem later_claim_followsRule_iff {generator : Generator} (silent : generator.store.Silent)
    {routes : List Route} {begun : Assembly} {earlier later : List Claim}
    {claim : Claim} {reached : Progress} {existing : Operation} {server : Server}
    (started : generator.beginning = .ok begun)
    (listed : generator.claims routes = earlier ++ claim :: later)
    (through : Claim.run earlier (.start begun) = (reached, none))
    (found : reached.assembly.find? claim.context.fullPath claim.context.method = some existing)
    (given : claim.context.route.server = some server) (unlisted : server ∉ existing.servers) :
    ∃ first rest after, Claim.contextsAt earlier claim.context.fullPath claim.context.method =
        first :: rest ∧
      claim.advance reached = .ok after ∧
      Claim.run (generator.claims routes) (.start begun) = Claim.run later after ∧
      generator.assemble routes =
        .ok ((Claim.run later after).1.assembly, (Claim.run later after).2) ∧
      (claim.FollowsRule first reached server ↔ ¬first.SameInNameOnly claim.context) := by
  have accounts := Claim.run_accounts through (beginning_silent silent started)
    (accounts_begun started) claim.context.fullPath claim.context.method
  obtain ⟨first, rest, operation, stored, dropped, claimed, built, rfl, -⟩ :=
    accounts.of_found found
  have place : first.fullPath = claim.context.fullPath :=
    Claim.fullPath_of_contextsAt_eq_cons claimed
  obtain ⟨after, advanced⟩ : ∃ after, claim.advance reached = .ok after :=
    ⟨_, Claim.advance_of_found found⟩
  have continued : Claim.run (generator.claims routes) (.start begun) = Claim.run later after := by
    rw [listed, Claim.run_append_of_reached through, Claim.run_cons_of_advance advanced]
  refine ⟨first, rest, after, claimed, advanced, continued, ?_,
    Claim.followsRule_iff built place found given unlisted⟩
  simp only [assemble_eq_run, started, Except.map, continued]

theorem later_claim_followsRule_iff_posting :
    ∃ reached first rest after,
      Claim.run [.posting "a" .text "s1"] (.start {}) = (reached, none) ∧
      Claim.contextsAt [.posting "a" .text "s1"] (Route.posting "a" .text "s2").fullPath .post =
        first :: rest ∧
      (Claim.posting "a" .text "s2").advance reached = .ok after ∧
      ((Claim.posting "a" .text "s2").FollowsRule first reached { url := "s2" } ↔
        ¬first.SameInNameOnly (.posting "a" .text "s2")) := by
  obtain ⟨reached, through, found, unlisted⟩ := run_posting_text
  have silent : (unused {} []).store.Silent := rfl
  have listed : (unused {} []).claims
      [.posting "a" .text "s1", .posting "a" .text "s2"] =
        [.posting "a" .text "s1"] ++ .posting "a" .text "s2" :: [] :=
    claims_posting [("a", .text, "s1"), ("a", .text, "s2")]
  obtain ⟨first, rest, after, claimed, advanced, -, -, rule⟩ :=
    later_claim_followsRule_iff silent rfl listed through (found .text) rfl unlisted
  exact ⟨reached, first, rest, after, through, claimed, advanced, rule⟩

end Generator

/-! ## A claim that is the same in name only -/

namespace OperationContext

/-- Routes with one field compare as the same whatever the field is. -/
theorem sameDefinition_posting (first second : Rule) (firstUrl secondUrl : String)
    (type otherType : SchemaType) :
    (Operation.posting "a" first firstUrl (.requiredOf type)).sameDefinition
      (.posting "a" second secondUrl (.requiredOf otherType)) = true := by
  have named : ∀ rule url, (posting "a" rule url).route.action = some "a" := fun _ _ => rfl
  have docs : ∀ rule url, (posting "a" rule url).docs = {} := fun _ _ => rfl
  have settings : ∀ rule url, (posting "a" rule url).settings = {} := fun _ _ => rfl
  have tags : ∀ rule url, (posting "a" rule url).tags = [] := fun _ _ => rfl
  have summary : (posting "a" first firstUrl).summary = (posting "a" second secondUrl).summary :=
    rfl
  have inputs : (postingInputs "a" (.requiredOf type)).same
      (postingInputs "a" (.requiredOf otherType)) = true := by
    simp [Inputs.same, postingInputs, Parameter.sameList, sameOptional, RequestBody.same,
      Schema.same, Fragment.requiredNames, Fragment.requiredOf]
  simp only [Operation.posting, operation, Operation.sameDefinition, named, docs, settings, tags,
    summary, inputs, beq_self_eq_true, Bool.true_and, Bool.and_true, Option.getD_none,
    sameOptional]
  simp [Json.same, Json.sameEntries, Entries.get?]

/-- A text and a number do not compare as the same, though operations around
them do: these refer to them by the name of the action. -/
theorem sameInNameOnly_posting (firstUrl secondUrl : String) :
    (posting "a" .text firstUrl).SameInNameOnly (posting "a" .number secondUrl) := by
  refine ⟨_, _, _, _, build_posting "a" (MapperTable.convertFields_text "name") firstUrl,
    build_posting "a" (MapperTable.convertFields_number "name") secondUrl,
    sameDefinition_posting _ _ _ _ _ _, ?_⟩
  intro behind
  obtain ⟨object, known, held, knownHeld, same⟩ := behind "a" (.direct (refersTo_posting "a" _))
  rw [Store.get?_record_object rfl] at held knownHeld
  cases held
  cases knownHeld
  have properties : Schema.sameProperties [("name", .inline (.typed .string))]
      [("name", .inline (.typed .number))] = true := SchemaObject.sameProperties_of_same same
  unfold Schema.sameProperties at properties
  simp only [Entries.get?, if_true, Bool.and_eq_true] at properties
  have inner := properties.1
  unfold Schema.same at inner
  exact absurd (SchemaObject.type_of_same inner) (by decide)

end OperationContext

namespace Generator

/-- The rule is broken: two routes post to the same path under the same action,
the one a text, the other a number.  The second one adds its server without a
warning although its component is another one. -/
theorem number_shares_server_of_text :
    ∃ reached existing,
      (unused {} []).beginning = .ok {} ∧
      (unused {} []).claims [.posting "a" .text "s1", .posting "a" .number "s2"] =
        [.posting "a" .text "s1", .posting "a" .number "s2"] ∧
      Claim.run [.posting "a" .text "s1"] (.start {}) = (reached, none) ∧
      reached.assembly.find? (OperationContext.posting "a" .number "s2").fullPath .post =
        some existing ∧
      { url := "s2" } ∉ existing.servers ∧
      (Claim.posting "a" .number "s2").advance reached =
        .ok ((Claim.posting "a" .number "s2").sharing reached { url := "s2" }) ∧
      ¬(OperationContext.posting "a" .text "s1").SameMeaning (.posting "a" .number "s2") ∧
      ¬(Claim.posting "a" .number "s2").FollowsRule (.posting "a" .text "s1") reached
        { url := "s2" } := by
  obtain ⟨reached, through, found, unlisted⟩ := run_posting_text
  have inName := OperationContext.sameInNameOnly_posting "s1" "s2"
  have built := OperationContext.build_posting "a" (MapperTable.convertFields_text "name") "s1"
  refine ⟨reached, _, rfl, claims_posting [("a", .text, "s1"), ("a", .number, "s2")], through,
    found .number, unlisted, ?_, inName.not_sameMeaning, ?_⟩
  · exact Claim.advance_of_sameDefinition (found .number) rfl unlisted
      (OperationContext.build_posting "a" (MapperTable.convertFields_number "name") "s2")
      (OperationContext.sameDefinition_posting _ _ _ _ _ _)
  · rw [Claim.followsRule_iff built rfl (found .number) rfl unlisted]
    exact not_not_intro inName

end Generator
end RouteDocs
