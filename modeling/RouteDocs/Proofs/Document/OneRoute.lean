import RouteDocs.Proofs.Document.Account
import RouteDocs.Proofs.Document.TwoRuns
import RouteDocs.Proofs.Route.Comparable
import RouteDocs.Proofs.Store.NormalForm

namespace RouteDocs

/-!
# The methods of one route share their components

Two methods of a route differ in what they send as a body.  As long as the
documentation puts no field into the body, all that one of them registers is
registered by the other as well.  If each of them registers no name twice, they
therefore register the same object under every name they have in common.

The filter of a route passes over objects that compare as the same, so a second
method stores again only what is not the same as itself.  An undefined number is
not the same as itself, and neither is an object that shows one.  A generation
from one route notes no other collision, unless one of its methods collides with
itself.  No route that has been read names an undefined number
(`Route.comparable_of_readJson`), so such routes share silently.
-/

/-- The documentation of the route puts no field into the body. -/
def Route.LeavesBody (route : Route) : Prop :=
  ∀ params ∈ route.params, ∀ fields notes, params.fieldRules? = some (fields, notes) →
    ∀ name ∈ fields.names, route.mergedDocs.parameterLocations.get? name ≠ some .body

theorem Params.Comparable.throughout {params : Params} (comparable : params.Comparable) :
    params.Throughout Rule.OwnComparable := by
  cases params with
  | fields named notes => exact comparable.2
  | root rule => exact comparable

namespace OperationContext

variable {context : OperationContext}

/-- What an operation with comparable rules registers is the same as itself. -/
theorem Guarantees.registrations_same_self
    (guarantees : context.Guarantees Rule.OwnComparable SchemaObject.Comparable) :
    ∀ entry ∈ context.registrations, entry.2.same entry.2 = true := by
  intro entry registered
  rcases List.mem_flatMap.mp registered with ⟨lifting, lifted, stored⟩
  exact Schema.registrations_same_self (guarantees.liftings lifting lifted) lifting.1 entry stored

/-! ## What one method registers, another registers as well -/

/-- Without fields that are put there, a method that sends none has an empty body. -/
theorem fieldsPlaced_body_eq_nil {fields : Entries Rule}
    (free : ∀ name ∈ fields.names, context.docs.parameterLocations.get? name ≠ some .body)
    (sendsNone : context.sendsBody = false) : context.fieldsPlaced .body fields = [] := by
  apply List.filter_eq_nil_iff.mpr
  intro field documented placed
  have declared : field.1 ∈ fields.names :=
    (names_documentedFields fields).subset (List.mem_map_of_mem documented)
  have location := free field.1 declared
  rw [placement, sendsNone] at placed
  cases given : context.docs.parameterLocations.get? field.1 with
  | none => rw [given] at placed; cases placed
  | some place =>
    rw [given] at placed location
    cases place with
    | query => cases placed
    | body => exact location rfl

/-- Whether the method sends a body decides all that the method decides. -/
theorem fieldsPlaced_forMethod {method : Method} (place : Placement) (fields : Entries Rule)
    (same : (context.forMethod method).sendsBody = context.sendsBody) :
    (context.forMethod method).fieldsPlaced place fields = context.fieldsPlaced place fields := by
  have sameDocumented : (context.forMethod method).documentedFields fields =
      context.documentedFields fields := rfl
  have samePlacement : ∀ name, (context.forMethod method).placement name = context.placement name := by
    intro name
    rw [placement, same]
    rfl
  simp only [fieldsPlaced, sameDocumented, samePlacement]

theorem valueLiftings_subset {method : Method}
    (sends : context.sendsBody = true → (context.forMethod method).sendsBody = true) (rule : Rule) :
    context.valueLiftings rule ⊆ (context.forMethod method).valueLiftings rule := by
  cases sendsHere : context.sendsBody with
  | false =>
    simp only [valueLiftings, sendsHere, Bool.false_eq_true, if_false]
    exact List.nil_subset _
  | true =>
    have same : (context.forMethod method).valueLiftings rule = context.valueLiftings rule := by
      simp only [valueLiftings, sendsHere, sends sendsHere, if_true]
      rfl
    rw [same]
    exact List.Subset.refl _

/-- A method registers all that another registers which sends no body, or which
sends one like itself. -/
theorem otherRegistrations_subset {action : String} (named : context.route.action = some action)
    (free : ∀ params ∈ context.route.params, ∀ fields notes,
      params.fieldRules? = some (fields, notes) →
        ∀ name ∈ fields.names, context.docs.parameterLocations.get? name ≠ some .body)
    {method : Method}
    (sends : context.sendsBody = true → (context.forMethod method).sendsBody = true) :
    Schema.registrationsOf context.otherLiftings ⊆
      Schema.registrationsOf (context.forMethod method).otherLiftings := by
  by_cases standard : context.route.kind = .standard
  case neg =>
    rw [context.otherLiftings_forMethod standard]
    exact List.Subset.refl _
  cases given : context.route.params with
  | none =>
    simp only [otherLiftings, given]
    exact List.nil_subset _
  | some params =>
    rcases ruled : params.fieldRules? with _ | ⟨fields, notes⟩
    · cases params with
      | fields own notes => cases ruled
      | root rule =>
        rw [context.otherLiftings_of_root given ruled standard,
          (context.forMethod method).otherLiftings_of_root given ruled standard]
        intro entry registered
        rcases List.mem_flatMap.mp registered with ⟨lifting, lifted, stored⟩
        exact List.mem_flatMap.mpr ⟨lifting, valueLiftings_subset sends rule lifted, stored⟩
    · intro entry registered
      have here := context.mem_registrationsOf_otherLiftings given ruled standard named entry
      have there :=
        (context.forMethod method).mem_registrationsOf_otherLiftings given ruled standard named entry
      rcases here.mp registered with ofField | ofBody
      · exact there.mpr (Or.inl ofField)
      · cases sendsHere : context.sendsBody with
        | false =>
          rw [fieldsPlaced_body_eq_nil (free params given fields notes ruled) sendsHere] at ofBody
          cases ofBody.1
        | true =>
          have same := fieldsPlaced_forMethod .body fields ((sends sendsHere).trans sendsHere.symm)
          exact there.mpr (Or.inr (same ▸ ofBody))

/-- Of two methods one registers all that the other registers. -/
theorem registrations_subset (context : OperationContext) {action : String}
    (named : context.route.action = some action)
    (free : ∀ params ∈ context.route.params, ∀ fields notes,
      params.fieldRules? = some (fields, notes) →
        ∀ name ∈ fields.names, context.docs.parameterLocations.get? name ≠ some .body)
    (method : Method) :
    context.registrations ⊆ (context.forMethod method).registrations ∨
      (context.forMethod method).registrations ⊆ context.registrations := by
  have extend : ∀ first : OperationContext, ∀ method, first.route = context.route →
      first.docs = context.docs →
      (first.sendsBody = true → (first.forMethod method).sendsBody = true) →
      first.registrations ⊆ (first.forMethod method).registrations := by
    intro first method sameRoute sameDocs sends entry registered
    have others : Schema.registrationsOf first.otherLiftings ⊆
        Schema.registrationsOf (first.forMethod method).otherLiftings := by
      apply otherRegistrations_subset (sameRoute ▸ named) _ sends
      rw [sameRoute, sameDocs]
      exact free
    rw [mem_registrations_iff] at registered ⊢
    rcases registered with ofPath | ⟨acts, ofOther⟩
    · exact Or.inl ofPath
    · exact Or.inr ⟨acts, others ofOther⟩
  cases sends : (context.forMethod method).sendsBody with
  | true => exact Or.inl (extend context method rfl rfl fun _ => sends)
  | false =>
    right
    apply extend (context.forMethod method) context.method rfl rfl
    intro impossible
    rw [sends] at impossible
    cases impossible

/-- The operation is built, and stores the object under the name. -/
def Stores (context : OperationContext) (name : String) (object : SchemaObject) : Prop :=
  ∃ operation built, context.build = .ok (operation, built) ∧ built.get? name = some object

/-- Building the operation notes no collision. -/
def BuildsSilently (context : OperationContext) : Prop :=
  ∀ operation built, context.build = .ok (operation, built) →
    ∀ name, .componentCollision name ∉ built.warnings

/-- The operation registers no name twice. -/
def RegistersOnce (context : OperationContext) : Prop :=
  (Entries.names context.registrations).Nodup

/-- A build that notes no collision of its own registers no name twice, and
stores what it registers. -/
theorem BuildsSilently.registersOnce (silent : context.BuildsSilently) {operation : Operation}
    {built : Store} (succeeded : context.build = .ok (operation, built)) :
    context.RegistersOnce ∧ built.components = context.registrations ∧ built.warnings = [] := by
  have unnoted := silent operation built succeeded
  rcases build_eq_ok succeeded with ⟨_, _, _, rfl⟩
  have none : (({} : Store).record context.registrations).warnings = ({} : Store).warnings := by
    rw [Store.warnings_record] at unnoted ⊢
    rcases colliding : ({} : Store).components.colliding context.registrations with _ | ⟨entry, rest⟩
    · rfl
    · rw [colliding] at unnoted
      exact absurd (List.mem_append_right _ List.mem_cons_self) (unnoted entry.1)
  refine ⟨(Store.warnings_record_eq_self_iff.mp none).1, ?_⟩
  have components := Store.components_record_of_silent none
  rw [List.nil_append] at components
  exact ⟨components, none⟩

theorem Stores.registered (silent : context.BuildsSilently) {name : String} {object : SchemaObject}
    (stores : context.Stores name object) :
    context.RegistersOnce ∧ (name, object) ∈ context.registrations := by
  rcases stores with ⟨operation, built, succeeded, found⟩
  rcases silent.registersOnce succeeded with ⟨once, stored, -⟩
  rw [Store.get?, stored] at found
  exact ⟨once, Entries.mem_of_get?_eq_some found⟩

/-- Methods that register no name twice register the same under a common name. -/
theorem registered_eq_of_registersOnce (context : OperationContext) {method : Method}
    (either : context.registrations ⊆ (context.forMethod method).registrations ∨
      (context.forMethod method).registrations ⊆ context.registrations)
    (once : context.RegistersOnce) (onceThere : (context.forMethod method).RegistersOnce)
    {name : String} {first second : SchemaObject} (here : (name, first) ∈ context.registrations)
    (there : (name, second) ∈ (context.forMethod method).registrations) : first = second := by
  rcases either with fewer | more
  · have found := Entries.get?_of_mem onceThere (fewer here)
    exact Option.some.inj (found.symm.trans (Entries.get?_of_mem onceThere there))
  · have found := Entries.get?_of_mem once here
    exact Option.some.inj (found.symm.trans (Entries.get?_of_mem once (more there)))

end OperationContext

namespace Workshop

variable (workshop : Workshop) {route : Route}

theorem guarantees_of_comparable (own : workshop.table.HasOwnOnly) (comparable : route.Comparable)
    (method : Method) :
    (workshop.context route method).Guarantees Rule.OwnComparable SchemaObject.Comparable where
  shapes := SchemaObject.comparable_shapes
  callers := own.callersSatisfy
  ofParams params given := (comparable.params params given).throughout
  ofPath := comparable.pathParameters
  ofFields params given _ _ ruled _ fewer :=
    SchemaObject.comparable_of_fields rfl rfl rfl
      (fewer.nodup ((comparable.params params given).names ruled))

/-- Two methods of the route store one object under the name, and this object is
not the same as itself. -/
def SharesIncomparable (workshop : Workshop) (route : Route) (name : String) : Prop :=
  ∃ first ∈ route.effectiveMethods, ∃ second ∈ route.effectiveMethods, first ≠ second ∧
    ∃ object : SchemaObject, (workshop.context route first).Stores name object ∧
      (workshop.context route second).Stores name object ∧ object.same object = false

/-- Under a common name two methods store the same object. -/
theorem eq_of_stores {action : String} (named : route.action = some action)
    (leaves : route.LeavesBody) {first second : Method}
    (silent : (workshop.context route first).BuildsSilently)
    (silentThere : (workshop.context route second).BuildsSilently) {name : String}
    {object other : SchemaObject} (stores : (workshop.context route first).Stores name object)
    (storesThere : (workshop.context route second).Stores name other) : object = other := by
  have subset := (workshop.context route first).registrations_subset named leaves second
  rcases stores.registered silent with ⟨once, registered⟩
  rcases storesThere.registered silentThere with ⟨onceThere, registeredThere⟩
  exact (workshop.context route first).registered_eq_of_registersOnce subset once onceThere
    registered registeredThere

/-- Comparable rules, and the library's own mappers, leave nothing incomparable to share. -/
theorem not_sharesIncomparable (own : workshop.table.HasOwnOnly) (comparable : route.Comparable)
    (silent : ∀ method ∈ route.effectiveMethods, (workshop.context route method).BuildsSilently)
    (name : String) : ¬workshop.SharesIncomparable route name := by
  rintro ⟨first, listed, -, -, -, object, stores, -, unlike⟩
  have guarantees := workshop.guarantees_of_comparable own comparable first
  have same := guarantees.registrations_same_self _ (stores.registered (silent first listed)).2
  rw [unlike] at same
  cases same

end Workshop

/-! ## The run over the methods of a route -/

/-- The route has stored all that is stored, each object for a method that is
documented by now.  The collisions noted are of objects that are not the same as
themselves. -/
structure Progress.SharesSilently (progress : Progress) (workshop : Workshop) (route : Route) :
    Prop where
  whole : progress.contribution = progress.assembly.store.components
  stored : ∀ entry ∈ progress.contribution, ∃ method ∈ route.effectiveMethods,
    progress.assembly.find? route.fullPath method ≠ none ∧
      (workshop.context route method).Stores entry.1 entry.2
  quiet : progress.assembly.store.warnings = []
  collisions : ∀ name, .componentCollision name ∈ progress.assembly.warnings →
    workshop.SharesIncomparable route name

namespace Contribution

/-- What is not passed over and still finds its name taken differs from what is there. -/
theorem differs_of_colliding {contribution : Contribution} {built : Store}
    (distinct : built.components.names.Nodup) {entry : String × SchemaObject}
    (collides : entry ∈ Entries.colliding contribution (contribution.unrepeated built).components) :
    entry ∈ built.components ∧
      ∃ known, contribution.get? entry.1 = some known ∧ known.same entry.2 = false := by
  have distinctKept : Entries.names (contribution.unrepeated built).components |>.Nodup :=
    (List.filter_sublist.map Prod.fst).nodup distinct
  rcases Entries.mem_colliding_of_nodup distinctKept collides with ⟨kept, taken⟩
  rcases List.mem_filter.mp kept with ⟨member, passes⟩
  rcases Entries.mem_names_iff.mp taken with ⟨known, found⟩
  refine ⟨member, known, found, ?_⟩
  change (!contribution.repeats entry.1 entry.2) = true at passes
  rw [repeats, found, Bool.not_eq_true'] at passes
  exact passes

end Contribution

namespace Claim

variable {workshop : Workshop} {route : Route} {method : Method} {earlier later : Progress}

/-- What is documented stays documented. -/
theorem Step.find?_ne_none {claim : Claim} (step : claim.Step earlier later) {path : String}
    {asked : Method} (found : earlier.assembly.find? path asked ≠ none) :
    later.assembly.find? path asked ≠ none := by
  cases step with
  | share existing server taken shared =>
    rw [Assembly.find?_eq_head?] at found ⊢
    rwa [Assembly.operationsAt_share, List.head?_map, ne_eq, Option.map_eq_none_iff]
  | drop existing taken refused => exact found
  | accept operation built free succeeded =>
    by_cases here : claim.context.fullPath = path ∧ claim.context.method = asked
    · rcases here with ⟨rfl, rfl⟩
      exact absurd free found
    · rwa [Assembly.find?_accept_elsewhere _ _ _ here]

/-- A method that stores the same as the methods before it, wherever it stores
the same name, stores only new names and what is not the same as itself. -/
theorem Step.sharesSilently (listed : method ∈ route.effectiveMethods)
    (step : Step { context := workshop.context route method, opening := false } earlier later)
    (agree : ∀ other ∈ route.effectiveMethods, ∀ name object known,
      (workshop.context route other).Stores name known →
        (workshop.context route method).Stores name object → known = object)
    (silent : (workshop.context route method).BuildsSilently)
    (shares : earlier.SharesSilently workshop route) : later.SharesSilently workshop route := by
  have remain : ∀ entry ∈ earlier.contribution, ∃ other ∈ route.effectiveMethods,
      later.assembly.find? route.fullPath other ≠ none ∧
        (workshop.context route other).Stores entry.1 entry.2 := by
    intro entry member
    rcases shares.stored entry member with ⟨other, otherListed, documented, stores⟩
    exact ⟨other, otherListed, step.find?_ne_none documented, stores⟩
  cases step with
  | share existing server found shared =>
    exact ⟨shares.whole, remain, shares.quiet, shares.collisions⟩
  | drop existing found refused =>
    refine ⟨shares.whole, remain, shares.quiet, fun name noted => ?_⟩
    rcases List.mem_append.mp noted with before | new
    · exact shares.collisions name before
    · cases List.mem_singleton.mp new
  | accept operation built free succeeded =>
    rcases silent.registersOnce succeeded with ⟨once, registered, quietBuild⟩
    have distinct : built.components.names.Nodup := registered ▸ once
    have stores : ∀ entry ∈ built.components,
        (workshop.context route method).Stores entry.1 entry.2 := fun entry member =>
      ⟨operation, built, succeeded, Entries.get?_of_mem distinct member⟩
    refine ⟨?_, ?_, rfl, ?_⟩
    · change Entries.overlay earlier.contribution _ = (earlier.assembly.absorb _).store.components
      rw [Assembly.components_absorb, ← shares.whole]
    · intro entry member
      rcases Entries.mem_overlay member with new | before
      · have documented := Assembly.find?_accept_of_free free
          (earlier.contribution.unrepeated built) operation
        exact ⟨method, listed, fun none => Option.some_ne_none _ (documented.symm.trans none),
          stores entry (List.mem_filter.mp new).1⟩
      · exact remain entry before
    · intro name noted
      change _ ∈ (earlier.assembly.absorb (earlier.contribution.unrepeated built)).warnings at noted
      have quiet : (earlier.contribution.unrepeated built).warnings = [] := quietBuild
      rw [Assembly.warnings_absorb, ← shares.whole, shares.quiet, quiet, List.append_nil,
        List.append_nil, List.mem_append, List.mem_map] at noted
      rcases noted with before | ⟨entry, collides, same⟩
      · exact shares.collisions name before
      · cases same
        rcases Contribution.differs_of_colliding distinct collides with
          ⟨member, known, found, differs⟩
        rcases shares.stored _ (Entries.mem_of_get?_eq_some found) with
          ⟨other, otherListed, documented, before⟩
        have identical := agree other otherListed entry.1 entry.2 known before (stores entry member)
        -- The other method is documented, and this one was not.
        have different : other ≠ method := fun sameMethod => documented (sameMethod ▸ free)
        rw [identical] at before differs
        exact ⟨other, otherListed, method, listed, different, entry.2, before, stores entry member,
          differs⟩

/-- Claims of methods of one route, none of which collides with itself. -/
theorem run_sharesSilently {action : String} (named : route.action = some action)
    (leaves : route.LeavesBody)
    (silent : ∀ method ∈ route.effectiveMethods, (workshop.context route method).BuildsSilently)
    {before : Progress} (shares : before.SharesSilently workshop route) :
    (run (route.effectiveMethods.map fun method =>
      { context := workshop.context route method, opening := false })
        before).1.SharesSilently workshop route := by
  apply @run_invariant (fun reached => reached.SharesSilently workshop route) _ _ shares
  intro claim member reached further step held
  rcases List.mem_map.mp member with ⟨method, listed, rfl⟩
  refine Step.sharesSilently listed step ?_ (silent method listed) held
  intro other otherListed name object known there here
  exact workshop.eq_of_stores named leaves (silent other otherListed) (silent method listed) there
    here

end Claim

namespace Generator

theorem not_mem_baseWarnings (base : Entries Json) (name : String) :
    .componentCollision name ∉ baseWarnings base := by
  unfold baseWarnings
  split
  · exact List.not_mem_nil
  · intro noted
    cases List.mem_singleton.mp noted

/-- A generation from one documented route is the run over its methods. -/
theorem claims_singleton {generator : Generator} {route : Route} {action : String}
    (named : route.action = some action) (begun : Assembly) :
    (Claim.run (generator.claims [route]) (.start begun)).1.assembly =
      (Claim.run (route.effectiveMethods.map fun method =>
        { context := generator.workshop.context route method, opening := false })
          (.start begun)).1.assembly := by
  have documented : route.isDocumented = true := by
    rw [Route.isDocumented, named, Option.isSome_some, Bool.true_or]
  have claims : generator.claims [route] = generator.workshop.claimsOf route := by
    simp only [Generator.claims, Route.inPathOrder, List.mergeSort_singleton, Workshop.claims,
      List.filter_cons_of_pos documented, List.filter_nil, List.flatMap_cons, List.flatMap_nil,
      List.append_nil]
  have opened := generator.workshop.claimsOf_run route (.start begun)
  have continued := generator.workshop.claimMethods_eq_run route route.effectiveMethods (.start begun)
  rw [claims]
  exact congrArg Prod.fst (opened.symm.trans continued)

variable {generator : Generator} {route : Route} {action : String}

/-- A generation from one route for a supported version notes a collision only for
what two of its methods share and is not the same as itself. -/
theorem sharesIncomparable_of_collision (named : route.action = some action)
    (leaves : route.LeavesBody) (empty : generator.startingStore = {})
    (silent : ∀ method ∈ route.effectiveMethods,
      (generator.workshop.context route method).BuildsSilently)
    {versionText : String} {version : Version}
    (supported : Version.ofText? versionText = some version) {name : String}
    (noted : .componentCollision name ∈ (generator.generate versionText [route]).2.warnings) :
    generator.workshop.SharesIncomparable route name := by
  cases started : generator.beginning with
  | error fault =>
    simp only [generate, supported, generateFor, assemble, started, Except.map] at noted
    exact absurd noted (not_mem_baseWarnings generator.base name)
  | ok begun =>
    rcases beginning_eq_ok started with ⟨-, store, warnings⟩
    have start : (Progress.start begun).SharesSilently generator.workshop route := by
      refine ⟨?_, fun _ impossible => absurd impossible List.not_mem_nil, ?_, fun other early => ?_⟩
      · rw [Progress.start, store, empty]
      · rw [Progress.start, store, empty]
      · rw [Progress.start, warnings] at early
        exact absurd early (not_mem_baseWarnings generator.base other)
    have shares := Claim.run_sharesSilently named leaves silent start
    rw [generate_snd supported started, claims_singleton named begun] at noted
    exact shares.collisions name noted

/-- A route that has been read is documented without a collision by the library's own
mappers. -/
theorem read_route_shares_silently {value : Json} (orderly : value.Everywhere Json.IsOrderly)
    (read : Route.read (Node.ofJson value) = .ok route) (own : generator.table.HasOwnOnly)
    (named : route.action = some action) (leaves : route.LeavesBody)
    (empty : generator.startingStore = {})
    (silent : ∀ method ∈ route.effectiveMethods,
      (generator.workshop.context route method).BuildsSilently)
    {versionText : String} {version : Version}
    (supported : Version.ofText? versionText = some version) (name : String) :
    .componentCollision name ∉ (generator.generate versionText [route]).2.warnings := by
  intro noted
  have comparable := Route.comparable_of_readJson orderly read
  exact generator.workshop.not_sharesIncomparable own comparable silent name
    (sharesIncomparable_of_collision named leaves empty silent supported noted)

/-- When one route is documented on an empty store, its documentation puts no field into
the body and no method collides with itself, then its methods store the same object under
a common name.  A collision is only noted for an object that two of them store and that is
not the same as itself; any other is one that was noted before a version was refused. -/
theorem methods_of_one_route_share_silently (named : route.action = some action)
    (leaves : route.LeavesBody) (empty : generator.startingStore = {})
    (silent : ∀ method ∈ route.effectiveMethods,
      (generator.workshop.context route method).BuildsSilently) (versionText : String) :
    (∀ name, .componentCollision name ∈ (generator.generate versionText [route]).2.warnings →
      generator.workshop.SharesIncomparable route name ∨
        (Version.ofText? versionText = none ∧ .componentCollision name ∈ generator.warnings)) ∧
    ∀ first ∈ route.effectiveMethods, ∀ second ∈ route.effectiveMethods,
      ∀ name object other, (generator.workshop.context route first).Stores name object →
        (generator.workshop.context route second).Stores name other → object = other := by
  constructor
  · intro name noted
    cases supported : Version.ofText? versionText with
    | none =>
      simp only [generate, supported] at noted
      exact Or.inr ⟨rfl, noted⟩
    | some version =>
      exact Or.inl (sharesIncomparable_of_collision named leaves empty silent supported noted)
  · intro first listed second listedThere name object other stores storesThere
    exact generator.workshop.eq_of_stores named leaves (silent first listed)
      (silent second listedThere) stores storesThere

end Generator

/-- A route whose field is in the query of one method and in the body of the other. -/
def Route.moving : Route where
  methods := [.get, .post]
  path := "/x"
  action := some "a"
  params := some (.fields [("name", .text)] {})

def OperationContext.moving (method : Method) : OperationContext :=
  (Generator.unused {} []).workshop.context .moving method

namespace OperationContext

theorem fieldsOutsidePath_moving (method : Method) :
    (moving method).fieldsOutsidePath [("name", .text)] = .ok [("name", .requiredOf .string)] := by
  have converted := MapperTable.convertFields_text "name"
  have noPlaceholders : (moving method).placeholders = [] := by
    change Path.placeholders (Path.normalize "/x") = []
    decide
  exact fieldsOutsidePath_of_plain noPlaceholders converted

/-- Wherever the field is, its method notes nothing. -/
theorem warnings_of_build_moving {method : Method} (listed : method ∈ Route.moving.effectiveMethods)
    {operation : Operation} {built : Store}
    (succeeded : (moving method).build = .ok (operation, built)) :
    built.warnings = [] := by
  have ofField : Schema.registrationsOf
      ((moving method).queryLiftings [("name", .requiredOf .string)]) = [] := by
    simp only [queryLiftings, List.map_cons, List.map_nil, Fragment.requiredOf,
      Schema.registrationsOf_cons, Schema.registrations_typed, Schema.registrationsOf_nil,
      List.append_nil]
  rcases List.mem_cons.mp listed with rfl | listed
  · have inQuery : (moving .get).build = _ :=
      build_fields rfl rfl rfl rfl rfl (fieldsOutsidePath_moving .get)
        [("name", .requiredOf .string)] [] rfl rfl
    rw [Schema.registrationsOf_append, ofField, registrationsOf_bodyLiftings _ rfl] at inQuery
    rw [(Prod.mk.inj (Except.ok.inj (succeeded.symm.trans inQuery))).2]
    rfl
  · rcases List.mem_singleton.mp listed with rfl
    have inBody : (moving .post).build = _ :=
      build_fields rfl rfl rfl rfl rfl (fieldsOutsidePath_moving .post)
        [] [("name", .requiredOf .string)] rfl rfl
    rw [Schema.registrationsOf_append, registrationsOf_bodyLiftings _ rfl, ofField] at inBody
    rw [(Prod.mk.inj (Except.ok.inj (succeeded.symm.trans inBody))).2]
    rfl

end OperationContext

theorem Rule.comparable_text : Rule.text.Comparable := by
  refine .intro ⟨⟨List.forall_mem_nil _, List.forall_mem_nil _, List.nodup_nil⟩, ?_⟩ ?_
  · intro value standsIn
    cases standsIn
  · exact List.forall_mem_nil _

theorem Route.comparable_moving : Route.moving.Comparable where
  params := by
    intro params given
    cases given
    refine ⟨List.nodup_singleton "name", fun field declared => ?_⟩
    rw [List.mem_singleton.mp declared]
    exact Rule.comparable_text
  pathParameters := List.forall_mem_nil _

namespace Generator

theorem moving_field_is_shared_silently :
    Route.moving.action = some "a" ∧ Route.moving.LeavesBody ∧
      (unused {} []).startingStore = {} ∧
      (∀ method ∈ Route.moving.effectiveMethods,
        ((unused {} []).workshop.context .moving method).BuildsSilently) ∧
      ∀ name, .componentCollision name ∉
        ((unused {} []).generate "3.0" [.moving]).2.warnings := by
  have leaves : Route.moving.LeavesBody := by
    intro params given fields notes ruled name declared located
    cases located
  have silent : ∀ method ∈ Route.moving.effectiveMethods,
      ((unused {} []).workshop.context .moving method).BuildsSilently :=
    fun method listed operation built succeeded name =>
      OperationContext.warnings_of_build_moving listed succeeded ▸ List.not_mem_nil
  refine ⟨rfl, leaves, rfl, silent, fun name noted => ?_⟩
  have shares := methods_of_one_route_share_silently (rfl : Route.moving.action = some "a") leaves
    (rfl : (unused {} []).startingStore = {}) silent "3.0"
  rcases shares.1 name noted with incomparable | ⟨unsupported, -⟩
  · exact (unused {} []).workshop.not_sharesIncomparable MapperTable.hasOwnOnly_builtin
      Route.comparable_moving silent name incomparable
  · cases (by decide : Version.ofText? "3.0" = some .v30).symm.trans unsupported

end Generator

/-! ## A number that is none

Zero divided by zero is no number, and compares as different from itself. -/

def NumberLimits.undefined : NumberLimits where
  min := some (0.0 / 0.0)

/-- A route for two methods with a body, whose field has an undefined bound. -/
def Route.undefined : Route where
  methods := [.post, .put]
  path := "/x"
  action := some "a"
  params := some (.fields [("name", { kind := .number .undefined })] {})

def Fragment.undefined : Fragment where
  schema := .inline NumberLimits.undefined.schema
  optional := false

/-- The component of such a route. -/
def SchemaObject.undefined : SchemaObject :=
  Fragment.object [("name", .undefined)] {}

theorem NumberLimits.schema_undefined_unlike :
    undefined.schema.same undefined.schema = false := by
  have differs : ((0.0 / 0.0 : Float) == 0.0 / 0.0) = false := by decide
  apply Bool.eq_false_iff.mpr
  intro same
  have facets := (SchemaObject.same_iff.mp same).1
  simp [Facets.same, NumberLimits.schema, undefined, excludesBelow, sameOptional, differs] at facets

theorem SchemaObject.undefined_unlike : undefined.same undefined = false := by
  have field : (Schema.inline NumberLimits.undefined.schema).same
      (.inline NumberLimits.undefined.schema) = false := by
    rw [Schema.same]
    exact NumberLimits.schema_undefined_unlike
  apply Bool.eq_false_iff.mpr
  intro same
  have properties := sameProperties_of_same same
  have listed : undefined.properties = [("name", .inline NumberLimits.undefined.schema)] := rfl
  have found : Entries.get? [("name", Schema.inline NumberLimits.undefined.schema)] "name" =
      some (.inline NumberLimits.undefined.schema) := rfl
  simp only [listed, Schema.sameProperties, found, field, Bool.false_and, Bool.false_eq_true]
    at properties

theorem Fragment.flat_undefined : Fragment.undefined.schema.Flat := by
  refine Schema.flat_inline.mpr ⟨rfl, SchemaObject.flatInside_iff.mpr ?_⟩
  exact List.forall_mem_nil _

theorem SchemaObject.lifted_undefined : undefined.lifted "a" = undefined := by
  apply lifted_eq_self
  intro placed listed
  rw [undefined, Fragment.placedParts_object, List.map_cons, List.map_nil] at listed
  rw [List.mem_singleton.mp listed]
  exact Fragment.flat_undefined.lifted_eq_self _

def OperationContext.undefined (method : Method) : OperationContext :=
  (Generator.unused {} []).workshop.context .undefined method

namespace OperationContext

theorem fieldsOutsidePath_undefined (method : Method) :
    (undefined method).fieldsOutsidePath [("name", { kind := .number .undefined })] =
      .ok [("name", .undefined)] := by
  have converted := MapperTable.convertFields_limits "name" .undefined
  have noPlaceholders : (undefined method).placeholders = [] := by
    change Path.placeholders (Path.normalize "/x") = []
    decide
  exact fieldsOutsidePath_of_plain noPlaceholders converted

/-- Each method stores the component, and nothing else. -/
theorem build_undefined {method : Method} (listed : method ∈ Route.undefined.effectiveMethods) :
    ∃ operation, (undefined method).build =
      .ok (operation, { components := [("a", .undefined)] }) := by
  have sends : (undefined method).sendsBody = true := by
    rcases List.mem_cons.mp listed with rfl | listed
    · rfl
    · rw [List.mem_singleton.mp listed]
      rfl
  have inBody : (undefined method).placement "name" = .body := by
    have unplaced : (undefined method).docs.parameterLocations.get? "name" = none := rfl
    rw [placement, unplaced, sends]
    rfl
  have built : (undefined method).build = _ :=
    build_fields rfl rfl rfl rfl rfl (fieldsOutsidePath_undefined method)
      [] [("name", .undefined)] (by simp [inBody]) (by simp [inBody])
  have ofField : Schema.registrationsOf ((undefined method).queryLiftings [("name", .undefined)]) =
      [] := by
    rw [queryLiftings, List.map_cons, List.map_nil, Schema.registrationsOf_cons,
      Schema.registrationsOf_nil, List.append_nil]
    exact Fragment.flat_undefined.registrations_eq_nil _
  have lifted : (Fragment.object [("name", .undefined)] {}).lifted "a" = .undefined :=
    SchemaObject.lifted_undefined
  rw [Schema.registrationsOf_append, registrationsOf_bodyLiftings _ rfl, ofField, lifted] at built
  exact ⟨_, built⟩

end OperationContext

/-- What a method of the route leaves when its operation is documented. -/
def Progress.withUndefined (before : Progress) (method : Method) (operation : Operation) :
    Progress where
  contribution := before.contribution.overlay [("a", .undefined)]
  assembly := (before.assembly.absorb { components := [("a", .undefined)] }).accept
    (.undefined method) operation

/-- A method stores the component although the route has stored it before. -/
theorem Claim.advance_undefined {method : Method}
    (listed : method ∈ Route.undefined.effectiveMethods) :
    ∃ operation, ∀ before : Progress,
      before.assembly.find? (OperationContext.undefined method).fullPath method = none →
      (∀ object, before.contribution.get? "a" = some object → object = .undefined) →
        advance { context := .undefined method, opening := false } before =
          .ok (before.withUndefined method operation) := by
  rcases OperationContext.build_undefined listed with ⟨operation, built⟩
  refine ⟨operation, fun before free known => ?_⟩
  have differs : before.contribution.repeats "a" .undefined = false := by
    rw [Contribution.repeats]
    split
    · next object found =>
      rw [known object found]
      exact SchemaObject.undefined_unlike
    · rfl
  have kept : before.contribution.unrepeated { components := [("a", .undefined)] } =
      { components := [("a", .undefined)] } := by
    simp only [Contribution.unrepeated, Store.retain, List.filter_cons, differs, Bool.not_false,
      if_true, List.filter_nil]
  have advanced := @advance_of_free { context := .undefined method, opening := false } before
    operation _ free built
  have contributed : contributed { context := .undefined method, opening := false } before =
      before.contribution := rfl
  rw [contributed, kept] at advanced
  exact advanced

namespace Generator

/-- The second method finds the name of the component taken. -/
theorem warnings_of_undefined :
    ((unused {} []).generate "3.0" [.undefined]).2.warnings = [.componentCollision "a"] := by
  have supported : Version.ofText? "3.0" = some .v30 := by decide
  have methods : Route.undefined.effectiveMethods = [.post, .put] := rfl
  have postListed : .post ∈ Route.undefined.effectiveMethods := methods ▸ List.mem_cons_self
  have putListed : .put ∈ Route.undefined.effectiveMethods :=
    methods ▸ List.mem_cons_of_mem _ List.mem_cons_self
  rcases Claim.advance_undefined postListed with ⟨first, post⟩
  rcases Claim.advance_undefined putListed with ⟨second, put⟩
  have opened := post (.start {}) rfl fun object found => by cases found
  have followed := put ((Progress.start {}).withUndefined .post first) rfl fun object found => by
    cases found
    rfl
  have started : (unused {} []).beginning = .ok {} := rfl
  have ran := (Claim.run_cons_of_advance opened _).trans (Claim.run_cons_of_advance followed [])
  have single := @claims_singleton (unused {} []) .undefined "a" rfl {}
  have reached : (Claim.run ((unused {} []).claims [.undefined]) (.start {})).1.assembly =
      (((Progress.start {}).withUndefined .post first).withUndefined .put second).assembly :=
    single.trans (congrArg (fun result => result.1.assembly) ran)
  rw [generate_snd supported started, reached]
  rfl

/-- The methods of a route with an undefined bound share their component, and yet a
collision is noted.  The next call still reports it when it refuses its version. -/
theorem undefined_bound_collides :
    Route.undefined.action = some "a" ∧ Route.undefined.LeavesBody ∧
      (unused {} []).startingStore = {} ∧
      (∀ method ∈ Route.undefined.effectiveMethods,
        ((unused {} []).workshop.context .undefined method).BuildsSilently) ∧
      ((unused {} []).generate "3.0" [.undefined]).2.warnings = [.componentCollision "a"] ∧
      (((unused {} []).performAll [.generate "3.0" [.undefined], .reset]).generate "2.0"
        [.moving]).2.warnings = [.componentCollision "a"] := by
  refine ⟨rfl, ?_, rfl, ?_, warnings_of_undefined, ?_⟩
  · intro params given fields notes ruled name declared located
    cases located
  · intro method listed operation built succeeded name
    rcases OperationContext.build_undefined listed with ⟨documented, stored⟩
    rw [(Prod.mk.inj (Except.ok.inj (succeeded.symm.trans stored))).2]
    exact List.not_mem_nil
  · have unsupported : Version.ofText? "2.0" = none := by decide
    rw [generate, unsupported]
    exact warnings_of_undefined

end Generator
end RouteDocs
