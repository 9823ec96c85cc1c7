import RouteDocs.Proofs.Document.Account
import RouteDocs.Proofs.Input.Misshapen
import RouteDocs.Proofs.Operation.Building

namespace RouteDocs

/-!
# When a generation succeeds

A claim can fail only while nothing is documented in its place.  From then on
the place is taken, and every later claim for it gets through, also one that
could not be built.  So a run fails exactly when one of the claims that come
first for a place cannot be built, and it fails for the reason of such a claim.

With the built-in table this leaves three causes for a generation to fail: the
version, the tags and servers of the base, and an upload of one value that
comes first for a method at a path.
-/

namespace Claim

/-- The claim is the first of the given ones for a place where nothing is documented. -/
def Decides (claims : List Claim) (assembly : Assembly) (first : OperationContext) : Prop :=
  ∃ path method later, contextsAt claims path method = first :: later ∧
    assembly.find? path method = none

theorem contextsAt_cons_self (claim : Claim) (rest : List Claim) :
    contextsAt (claim :: rest) claim.context.fullPath claim.context.method =
      claim.context :: contextsAt rest claim.context.fullPath claim.context.method := by
  have here : claim.isFor claim.context.fullPath claim.context.method = true :=
    isFor_eq_true_iff.mpr ⟨rfl, rfl⟩
  simp [contextsAt, here]

theorem contextsAt_cons_elsewhere {claim : Claim} {path : String} {method : Method}
    (elsewhere : ¬(claim.context.fullPath = path ∧ claim.context.method = method))
    (rest : List Claim) :
    contextsAt (claim :: rest) path method = contextsAt rest path method := by
  rw [← isFor_eq_true_iff] at elsewhere
  simp [contextsAt, elsewhere]

/-- A claim for a place that is taken decides nothing. -/
theorem decides_cons_of_taken {claim : Claim} {rest : List Claim} {before after : Assembly}
    (taken : before.find? claim.context.fullPath claim.context.method ≠ none)
    (same : ∀ path method, after.find? path method = none ↔ before.find? path method = none)
    (first : OperationContext) :
    Decides (claim :: rest) before first ↔ Decides rest after first := by
  have elsewhere : ∀ {path : String} {method : Method}, before.find? path method = none →
      ¬(claim.context.fullPath = path ∧ claim.context.method = method) := by
    rintro path method free ⟨rfl, rfl⟩
    exact taken free
  constructor
  · rintro ⟨path, method, later, claimed, free⟩
    rw [contextsAt_cons_elsewhere (elsewhere free)] at claimed
    exact ⟨path, method, later, claimed, (same path method).mpr free⟩
  · rintro ⟨path, method, later, claimed, free⟩
    rw [same] at free
    exact ⟨path, method, later, by rw [contextsAt_cons_elsewhere (elsewhere free), claimed], free⟩

/-- A claim for a free place decides it; the claims after it decide the other places. -/
theorem decides_cons_of_free {claim : Claim} (rest : List Claim) {before after : Assembly}
    (free : before.find? claim.context.fullPath claim.context.method = none)
    (taken : after.find? claim.context.fullPath claim.context.method ≠ none)
    (same : ∀ path method, ¬(claim.context.fullPath = path ∧ claim.context.method = method) →
      after.find? path method = before.find? path method) (first : OperationContext) :
    Decides (claim :: rest) before first ↔ first = claim.context ∨ Decides rest after first := by
  constructor
  · rintro ⟨path, method, later, claimed, stillFree⟩
    by_cases here : claim.context.fullPath = path ∧ claim.context.method = method
    · obtain ⟨rfl, rfl⟩ := here
      rw [contextsAt_cons_self] at claimed
      exact Or.inl (List.cons.inj claimed).1.symm
    · rw [contextsAt_cons_elsewhere here] at claimed
      exact Or.inr ⟨path, method, later, claimed, by rw [same path method here, stillFree]⟩
  · rintro (rfl | ⟨path, method, later, claimed, stillFree⟩)
    · exact ⟨_, _, _, contextsAt_cons_self claim rest, free⟩
    · have elsewhere : ¬(claim.context.fullPath = path ∧ claim.context.method = method) := by
        rintro ⟨rfl, rfl⟩
        exact taken stillFree
      exact ⟨path, method, later, by rw [contextsAt_cons_elsewhere elsewhere, claimed],
        by rw [← same path method elsewhere, stillFree]⟩

theorem advance_of_refused {claim : Claim} {before : Progress} {fault : Fault}
    (free : before.assembly.find? claim.context.fullPath claim.context.method = none)
    (refused : claim.context.build = .error fault) : claim.advance before = .error fault := by
  simp only [advance, OperationContext.claim, free, refused, Except.map]

/-- A claim for a taken place leaves the same places taken. -/
theorem find?_advance_of_found {claim : Claim} {before after : Progress} {existing : Operation}
    (found : before.assembly.find? claim.context.fullPath claim.context.method = some existing)
    (advanced : claim.advance before = .ok after) (path : String) (method : Method) :
    after.assembly.find? path method = none ↔ before.assembly.find? path method = none := by
  cases step_of_advance advanced with
  | share existing server found shared =>
    rw [Assembly.find?_eq_head?, Assembly.operationsAt_share, Assembly.find?_eq_head?,
      List.head?_map, Option.map_eq_none_iff]
  | drop existing found refused => rfl
  | accept operation built free succeeded =>
    rw [found] at free
    cases free

/-- A run gets through exactly when all deciding claims can be built, and ends
for the reason of one that cannot. -/
theorem run_outcome (claims : List Claim) (before : Progress) :
    ((run claims before).2 = none → ∀ first, Decides claims before.assembly first →
      ∃ operation built, first.build = .ok (operation, built)) ∧
    ∀ fault, (run claims before).2 = some fault →
      ∃ first, Decides claims before.assembly first ∧ first.build = .error fault := by
  induction claims generalizing before with
  | nil =>
    constructor
    · rintro - first ⟨path, method, later, claimed, -⟩
      cases claimed
    · intro fault failed
      cases failed
  | cons claim rest inductionHypothesis =>
    cases found : before.assembly.find? claim.context.fullPath claim.context.method with
    | some existing =>
      have advanced := advance_of_found found
      have taken : before.assembly.find? claim.context.fullPath claim.context.method ≠ none :=
        found ▸ Option.some_ne_none existing
      simp only [run_cons_of_advance advanced,
        decides_cons_of_taken taken (find?_advance_of_found found advanced)]
      exact inductionHypothesis _
    | none =>
      cases built : claim.context.build with
      | error fault =>
        have ended : run (claim :: rest) before = (before, some fault) := by
          simp only [run, advance_of_refused found built]
        rw [ended]
        constructor
        · intro through
          cases through
        · intro reason same
          cases same
          exact ⟨claim.context, ⟨_, _, _, contextsAt_cons_self claim rest, found⟩, built⟩
      | ok result =>
        rcases result with ⟨operation, store⟩
        have accepted := Assembly.find?_accept_of_free found
          ((claim.contributed before).unrepeated store) operation
        have decides := decides_cons_of_free rest found
          (accepted ▸ Option.some_ne_none operation)
          fun path method elsewhere => Assembly.find?_accept_elsewhere before.assembly
            ((claim.contributed before).unrepeated store) operation elsewhere
        obtain ⟨through, ended⟩ := inductionHypothesis
          { contribution := (claim.contributed before).overlay
              ((claim.contributed before).unrepeated store).components
            assembly := (before.assembly.absorb
              ((claim.contributed before).unrepeated store)).accept claim.context operation }
        rw [run_cons_of_advance (advance_of_free found built)]
        constructor
        · intro reached first decided
          rcases (decides first).mp decided with rfl | later
          · exact ⟨operation, store, built⟩
          · exact through reached first later
        · intro fault failed
          obtain ⟨first, later, refused⟩ := ended fault failed
          exact ⟨first, (decides first).mpr (Or.inr later), refused⟩

/-- Where nothing is documented, the first claim for every place decides it. -/
theorem decides_of_unclaimed {claims : List Claim} {begun : Assembly}
    (none : begun.documented = []) {first : OperationContext} :
    Decides claims begun first ↔
      ∃ path method later, contextsAt claims path method = first :: later := by
  have free : ∀ path method, begun.find? path method = .none := by
    intro path method
    rw [Assembly.find?, none]
    rfl
  simp only [Decides, free, and_true]

end Claim

namespace Generator

/-! ## What a generation begins with -/

/-- What a base has under a name, if it has anything there, can be read as a list. -/
def ListReads {α : Type} (read : Node → Reading α) (base : Entries Json) (name : String) : Prop :=
  ∀ value, base.get? name = some value → ∃ items, (Node.ofJson value).asList read = .ok items

variable {α : Type}

theorem listReads_iff {read : Node → Reading α} {base : Entries Json} {name : String} :
    ListReads read base name ↔ ∃ items, baseList read base name = .ok items := by
  unfold ListReads baseList
  cases base.get? name with
  | none => exact ⟨fun _ => ⟨[], rfl⟩, fun _ _ impossible => nomatch impossible⟩
  | some value =>
    exact ⟨fun reads => reads value rfl, fun reads other same => Option.some.inj same ▸ reads⟩

/-- A generation begins when the tags and the servers of its base can be read. -/
theorem exists_beginning_iff {generator : Generator} :
    (∃ begun, generator.beginning = .ok begun) ↔
      ListReads Tag.read generator.base "tags" ∧
        ListReads Server.read generator.base "servers" := by
  rw [listReads_iff, listReads_iff]
  unfold beginning baseParts
  cases baseList Tag.read generator.base "tags" with
  | error fault => simp [bind, Except.bind, Except.map]
  | ok tags =>
    cases baseList Server.read generator.base "servers" with
    | error fault => simp [bind, Except.bind, Except.map]
    | ok servers => simp [bind, Except.bind, pure, Except.pure, Except.map]

theorem baseList_fault {read : Node → Reading α} (byShape : Node.RefusesByShape read)
    {base : Entries Json} {name : String} {fault : Fault}
    (failed : baseList read base name = .error fault) : fault = .malformed none := by
  unfold baseList at failed
  split at failed
  · cases failed
  · exact byShape.asList _ _ failed

theorem beginning_fault {generator : Generator} {fault : Fault}
    (failed : generator.beginning = .error fault) : fault = .malformed none := by
  have parts : baseParts generator.base = .error fault := Except.eq_error_of_map_eq_error failed
  unfold baseParts at parts
  cases tags : baseList Tag.read generator.base "tags" with
  | error cause =>
    rw [tags] at parts
    cases parts
    exact baseList_fault Tag.read_refusesByShape tags
  | ok readTags =>
    rw [tags] at parts
    exact baseList_fault Server.read_refusesByShape (Except.eq_error_of_map_eq_error parts)

/-! ## Success and failure of a generation -/

theorem table_of_mem_claims {generator : Generator} {routes : List Route} {claim : Claim}
    (member : claim ∈ generator.claims routes) : claim.context.table = generator.table := by
  obtain ⟨route, -, listed⟩ := List.mem_flatMap.mp member
  obtain ⟨method, -, same⟩ := Workshop.mem_claimsOf _ listed
  rw [same]
  rfl

/-- A claim of a generation with the built-in table is refused when its route
uploads a value, and can be built otherwise. -/
theorem build_of_claimsAt {generator : Generator} (builtin : generator.table = .builtin)
    {routes : List Route} {path : String} {method : Method} {context : OperationContext}
    (member : context ∈ generator.claimsAt routes path method) :
    (context.route.UploadsValue → context.build = .error (.multipartRoot path)) ∧
      (¬context.route.UploadsValue →
        ∃ operation built, context.build = .ok (operation, built)) := by
  have place := (Claim.place_of_mem_contextsAt member).1
  obtain ⟨claim, listed, rfl⟩ := List.mem_map.mp member
  have claimed := (List.mem_filter.mp listed).1
  have table := (table_of_mem_claims claimed).trans builtin
  have documented := generator.workshop.isDocumented_of_mem_claims claimed
  exact ⟨fun uploads => place ▸ OperationContext.build_eq_error table uploads,
    OperationContext.builds table documented⟩

/-- Why a generation with the built-in table fails: for its version, for the
tags or the servers of its base, or for an upload of one value whose claim comes
first for a method at a path. -/
inductive Refuses (generator : Generator) (versionText : String) (routes : List Route) :
    Fault → Prop where
  | version (unsupported : Version.ofText? versionText = none) :
      Refuses generator versionText routes (.unsupportedVersion versionText)
  | base (unread : ¬(ListReads Tag.read generator.base "tags" ∧
        ListReads Server.read generator.base "servers")) :
      Refuses generator versionText routes (.malformed none)
  | upload {path : String} {method : Method} {first : OperationContext}
      {later : List OperationContext}
      (claimed : generator.claimsAt routes path method = first :: later)
      (uploads : first.route.UploadsValue) :
      Refuses generator versionText routes (.multipartRoot path)

theorem refuses_of_failed {generator : Generator} (builtin : generator.table = .builtin)
    {versionText : String} {routes : List Route} {fault : Fault}
    (failed : (generator.generate versionText routes).1 = .error fault) :
    generator.Refuses versionText routes fault := by
  cases supported : Version.ofText? versionText with
  | none =>
    simp only [generate, supported] at failed
    cases failed
    exact .version supported
  | some version =>
    cases started : generator.beginning with
    | error cause =>
      simp only [generate, supported, generateFor, assemble, started, Except.map] at failed
      cases failed
      obtain rfl := beginning_fault started
      refine .base fun reads => ?_
      obtain ⟨begun, begins⟩ := exists_beginning_iff.mpr reads
      rw [started] at begins
      cases begins
    | ok begun =>
      rw [generate_outcome supported started] at failed
      split at failed
      · next reason ended =>
        cases failed
        obtain ⟨first, decides, refused⟩ := (Claim.run_outcome _ _).2 _ ended
        obtain ⟨path, method, later, claimed⟩ :=
          (Claim.decides_of_unclaimed (beginning_eq_ok started).1).mp decides
        have member : first ∈ generator.claimsAt routes path method := by
          rw [claimsAt, claimed]
          exact List.mem_cons_self
        obtain ⟨refuses, builds⟩ := build_of_claimsAt builtin member
        by_cases uploads : first.route.UploadsValue
        · rw [refuses uploads] at refused
          cases refused
          exact .upload claimed uploads
        · obtain ⟨operation, store, succeeded⟩ := builds uploads
          rw [refused] at succeeded
          cases succeeded
      · cases failed

theorem allowed_of_succeeded {generator : Generator} (builtin : generator.table = .builtin)
    {versionText : String} {routes : List Route} {document : Json}
    (succeeded : (generator.generate versionText routes).1 = .ok document) {path : String}
    {method : Method} {first : OperationContext} {later : List OperationContext}
    (claimed : generator.claimsAt routes path method = first :: later) :
    ¬first.route.UploadsValue := by
  intro uploads
  obtain ⟨version, begun, reached, -, started, through, -, -⟩ := generate_eq_ok succeeded
  have decides : Claim.Decides (generator.claims routes) begun first :=
    (Claim.decides_of_unclaimed (beginning_eq_ok started).1).mpr ⟨path, method, later, claimed⟩
  obtain ⟨operation, store, built⟩ :=
    (Claim.run_outcome (generator.claims routes) (.start begun)).1 (by rw [through]) first decides
  have member : first ∈ generator.claimsAt routes path method := claimed ▸ List.mem_cons_self
  rw [(build_of_claimsAt builtin member).1 uploads] at built
  cases built

/-- With the built-in table a generation succeeds exactly when its version is
supported, the tags and the servers of its base can be read, and no claim that
comes first for a method at a path uploads one value.  Every failure is one of
these three; later claims and undocumented routes never make it fail. -/
theorem generate_succeeds_iff (generator : Generator) (builtin : generator.table = .builtin)
    (versionText : String) (routes : List Route) :
    ((∃ document, (generator.generate versionText routes).1 = .ok document) ↔
      (∃ version, Version.ofText? versionText = some version) ∧
        ListReads Tag.read generator.base "tags" ∧
        ListReads Server.read generator.base "servers" ∧
        ∀ path method first later, generator.claimsAt routes path method = first :: later →
          ¬first.route.UploadsValue) ∧
    ∀ fault, (generator.generate versionText routes).1 = .error fault →
      generator.Refuses versionText routes fault ∧
        (fault.kind = .unsupportedVersion ∨ fault.kind = .json ∨
          fault.kind = .multipartRootSchema) := by
  refine ⟨⟨?_, ?_⟩, ?_⟩
  · rintro ⟨document, succeeded⟩
    obtain ⟨version, begun, -, supported, started, -, -, -⟩ := generate_eq_ok succeeded
    obtain ⟨tags, servers⟩ := exists_beginning_iff.mp ⟨begun, started⟩
    exact ⟨⟨version, supported⟩, tags, servers, fun path method first later claimed =>
      allowed_of_succeeded builtin succeeded claimed⟩
  · rintro ⟨⟨version, supported⟩, tags, servers, allowed⟩
    cases outcome : (generator.generate versionText routes).1 with
    | ok document => exact ⟨document, rfl⟩
    | error fault =>
      cases refuses_of_failed builtin outcome with
      | version unsupported =>
        rw [supported] at unsupported
        cases unsupported
      | base unread => exact absurd ⟨tags, servers⟩ unread
      | upload claimed uploads => exact absurd uploads (allowed _ _ _ _ claimed)
  · intro fault failed
    have refuses := refuses_of_failed builtin failed
    refine ⟨refuses, ?_⟩
    cases refuses with
    | version unsupported => exact Or.inl rfl
    | base unread => exact Or.inr (Or.inl rfl)
    | upload claimed uploads => exact Or.inr (Or.inr rfl)

end Generator

/-- The upload of one text, to the path of the routes with one field. -/
def Route.uploading (action : String) : Route where
  methods := [.post]
  path := "/x"
  action := some action
  params := some (.root .text)
  kind := .multipart {}

theorem Route.uploadsValue_uploading (action : String) : (uploading action).UploadsValue :=
  ⟨rfl, ⟨{}, rfl⟩, .text, rfl, by decide⟩

namespace Generator

theorem mem_claimsAt {generator : Generator} {routes : List Route} {path : String}
    {method : Method} {context : OperationContext}
    (member : context ∈ generator.claimsAt routes path method) :
    ∃ route ∈ routes, route.fullPath = path ∧ method ∈ route.effectiveMethods ∧
      context = generator.workshop.context route method := by
  rw [claimsAt_eq] at member
  obtain ⟨route, listed, claimed⟩ := List.mem_flatMap.mp member
  obtain ⟨here, place⟩ := List.mem_filter.mp (List.mem_filter.mp listed).1
  obtain ⟨asked, effective, rfl⟩ := List.mem_map.mp claimed
  obtain ⟨answers, same⟩ := List.mem_filter.mp effective
  obtain rfl := beq_iff_eq.mp same
  exact ⟨route, here, beq_iff_eq.mp place, answers, rfl⟩

/-- The upload of one text fails where it comes first, and does no harm behind
a claim for the same place. -/
theorem generate_succeeds_iff_uploading :
    ((unused {} []).generate "3.0" [.uploading "b"]).1 = .error (.multipartRoot "/x") ∧
      ∃ document, ((unused {} []).generate "3.0"
        [.posting "a" .text "s", .uploading "b"]).1 = .ok document := by
  have supported : Version.ofText? "3.0" = some .v30 := by decide
  have reads : ListReads Tag.read [] "tags" ∧ ListReads Server.read [] "servers" := by
    constructor <;> exact fun _ impossible => nomatch impossible
  constructor
  · obtain ⟨succeeds, failures⟩ :=
      generate_succeeds_iff (unused {} []) rfl "3.0" [.uploading "b"]
    have claimed : (unused {} []).claimsAt [.uploading "b"] (Route.uploading "b").fullPath .post =
        [(unused {} []).workshop.context (.uploading "b") .post] := by
      rw [claimsAt_eq]
      simp [List.filter, Route.isDocumented, Route.effectiveMethods, Route.uploading]
    cases outcome : ((unused {} []).generate "3.0" [.uploading "b"]).1 with
    | ok document =>
      obtain ⟨-, -, -, allowed⟩ := succeeds.mp ⟨document, outcome⟩
      exact absurd (Route.uploadsValue_uploading "b") (allowed _ _ _ _ claimed)
    | error fault =>
      cases (failures fault outcome).1 with
      | version unsupported =>
        rw [supported] at unsupported
        cases unsupported
      | base unread => exact absurd reads unread
      | @upload path method first later found _ =>
        obtain ⟨route, listed, place, -, -⟩ := mem_claimsAt (found ▸ List.mem_cons_self)
        rw [List.mem_singleton.mp listed] at place
        rw [← place]
        exact congrArg (Except.error ∘ Fault.multipartRoot) (by decide : Path.normalize "/x" = "/x")
  · apply (generate_succeeds_iff (unused {} []) rfl "3.0"
      [.posting "a" .text "s", .uploading "b"]).1.mpr
    refine ⟨⟨.v30, supported⟩, reads.1, reads.2, ?_⟩
    intro path method first later claimed uploading
    -- Both routes claim one place, and the claim of the first stands in front.
    obtain ⟨route, listed, place, answers, -⟩ := mem_claimsAt (claimed ▸ List.mem_cons_self)
    obtain ⟨here, rfl⟩ : (Route.posting "a" .text "s").fullPath = path ∧ method = .post := by
      rcases List.mem_pair.mp listed with rfl | rfl <;>
        exact ⟨place, List.mem_singleton.mp answers⟩
    rw [claimsAt_eq, ← here] at claimed
    have front : first = (unused {} []).workshop.context (.posting "a" .text "s") .post :=
      (List.cons.inj claimed).1.symm
    obtain ⟨options, upload⟩ := uploading.upload
    rw [front] at upload
    cases upload

end Generator
end RouteDocs
