import RouteDocs.Proofs.Document.Claims
import RouteDocs.Proofs.Operation.Placement

namespace RouteDocs

/-!
# The life of a generator

A generator is used by generating documents and by resetting its components,
in any order and any number of times.  A generation touches the store only
through the run over its claims, so a property of stores that holds of the
empty store and that runs preserve holds of a generator after all its calls,
whether these succeed or fail.
-/

/-- One use of a generator. -/
inductive Call where
  | generate (versionText : String) (routes : List Route)
  | reset

namespace Generator

def unused (settings : Settings) (base : Entries Json) : Generator where
  settings := settings
  base := base

def perform (generator : Generator) (call : Call) : Generator :=
  match call with
  | .generate versionText routes => (generator.generate versionText routes).2
  | .reset => generator.resetComponents

def performAll (generator : Generator) (calls : List Call) : Generator :=
  calls.foldl perform generator

/-- A call changes nothing of a generator but its store and its warnings. -/
theorem exists_perform_eq (generator : Generator) (call : Call) :
    ∃ store warnings,
      generator.perform call = { generator with store := store, warnings := warnings } := by
  cases call with
  | reset => exact ⟨{}, generator.warnings, rfl⟩
  | generate versionText routes =>
    change ∃ store warnings, (generator.generate versionText routes).2 =
      { generator with store := store, warnings := warnings }
    unfold generate generateFor
    split
    · exact ⟨generator.store, generator.warnings, rfl⟩
    · split
      · exact ⟨_, _, rfl⟩
      · dsimp only
        split <;> exact ⟨_, _, rfl⟩

theorem workshop_perform (generator : Generator) (call : Call) :
    (generator.perform call).workshop = generator.workshop := by
  rcases exists_perform_eq generator call with ⟨store, warnings, same⟩
  rw [same]
  rfl

theorem workshop_performAll (generator : Generator) (calls : List Call) :
    (generator.performAll calls).workshop = generator.workshop := by
  induction calls generalizing generator with
  | nil => rfl
  | cons call rest inductionHypothesis =>
    exact (inductionHypothesis (generator.perform call)).trans (workshop_perform generator call)

/-! ## What a generation begins with and leaves behind -/

/-- A generation begins with the components of the generator and without operations. -/
theorem beginning_eq_ok {generator : Generator} {begun : Assembly}
    (started : generator.beginning = .ok begun) :
    begun.documented = [] ∧ begun.store = generator.startingStore ∧
      begun.warnings = baseWarnings generator.base := by
  obtain ⟨parts, -, rfl⟩ := Except.eq_ok_of_map_eq_ok started
  exact ⟨rfl, rfl, rfl⟩

theorem generate_eq_ok {generator : Generator} {versionText : String} {routes : List Route}
    {document : Json} (succeeded : (generator.generate versionText routes).1 = .ok document) :
    ∃ version begun reached, Version.ofText? versionText = some version ∧
      generator.beginning = .ok begun ∧
      Claim.run (generator.claims routes) (.start begun) = (reached, none) ∧
      document = Document.render version versionText (baseRest generator.base) reached.assembly ∧
      (generator.generate versionText routes).2 =
        { generator with
          store := reached.assembly.store
          warnings := reached.assembly.warnings } := by
  unfold generate at succeeded ⊢
  split at succeeded
  · cases succeeded
  · next version supported =>
    simp only [generateFor, assemble_eq_run] at succeeded ⊢
    cases started : generator.beginning with
    | error fault => simp only [started, Except.map, reduceCtorEq] at succeeded
    | ok begun =>
      simp only [started, Except.map] at succeeded ⊢
      rcases ran : Claim.run (generator.claims routes) (.start begun) with ⟨reached, _ | fault⟩
      · simp only [ran, Except.ok.injEq] at succeeded ⊢
        exact ⟨version, begun, reached, supported, rfl, ran, succeeded.symm, rfl⟩
      · simp only [ran, reduceCtorEq] at succeeded

/-- After a call for a supported version whose base can be read, the generator
has what the run has assembled, whether or not it failed. -/
theorem generate_snd {generator : Generator} {versionText : String} {version : Version}
    {routes : List Route} {begun : Assembly}
    (supported : Version.ofText? versionText = some version)
    (started : generator.beginning = .ok begun) :
    (generator.generate versionText routes).2 =
      { generator with
        store := (Claim.run (generator.claims routes) (.start begun)).1.assembly.store
        warnings := (Claim.run (generator.claims routes) (.start begun)).1.assembly.warnings } := by
  simp only [generate, supported, generateFor, assemble_eq_run, started, Except.map]
  cases (Claim.run (generator.claims routes) (.start begun)).2 <;> rfl

/-- Such a call fails as its run does, or gives the document of what the run has assembled. -/
theorem generate_outcome {generator : Generator} {versionText : String} {version : Version}
    {routes : List Route} {begun : Assembly}
    (supported : Version.ofText? versionText = some version)
    (started : generator.beginning = .ok begun) :
    (generator.generate versionText routes).1 =
      match (Claim.run (generator.claims routes) (.start begun)).2 with
      | some fault => .error fault
      | none => .ok (Document.render version versionText (baseRest generator.base)
          (Claim.run (generator.claims routes) (.start begun)).1.assembly) := by
  simp only [generate, supported, generateFor, assemble_eq_run, started, Except.map]
  cases (Claim.run (generator.claims routes) (.start begun)).2 <;> rfl

theorem generate_fst {generator : Generator} {versionText : String} {version : Version}
    {routes : List Route} {begun : Assembly} {reached : Progress}
    (supported : Version.ofText? versionText = some version)
    (started : generator.beginning = .ok begun)
    (through : Claim.run (generator.claims routes) (.start begun) = (reached, none)) :
    (generator.generate versionText routes).1 =
      .ok (Document.render version versionText (baseRest generator.base) reached.assembly) := by
  rw [generate_outcome supported started, through]

/-! ## Invariants of the store -/

theorem startingStore_invariant {invariant : Store → Prop} (empty : invariant {})
    {generator : Generator} (held : invariant generator.store) :
    invariant generator.startingStore := by
  unfold startingStore
  split
  · exact empty
  · exact held

/-- What the empty store has and every run preserves, every generation preserves. -/
theorem generate_invariant {invariant : Store → Prop} (empty : invariant {})
    {generator : Generator}
    (runs : ∀ (routes : List Route) (begun : Assembly), begun.documented = [] →
      invariant begun.store →
        invariant (Claim.run (generator.workshop.claims routes) (.start begun)).1.assembly.store)
    (held : invariant generator.store) (versionText : String) (routes : List Route) :
    invariant (generator.generate versionText routes).2.store := by
  cases supported : Version.ofText? versionText with
  | none =>
    simp only [generate, supported]
    exact held
  | some version =>
    cases started : generator.beginning with
    | error fault =>
      simp only [generate, supported, generateFor, assemble_eq_run, started, Except.map]
      exact startingStore_invariant empty held
    | ok begun =>
      obtain ⟨none, store, -⟩ := beginning_eq_ok started
      rw [generate_snd supported started]
      exact runs _ begun none (store ▸ startingStore_invariant empty held)

/-- Such a property holds of the store whatever the generator is used for. -/
theorem performAll_invariant {invariant : Store → Prop} (empty : invariant {})
    {generator : Generator}
    (runs : ∀ (routes : List Route) (begun : Assembly), begun.documented = [] →
      invariant begun.store →
        invariant (Claim.run (generator.workshop.claims routes) (.start begun)).1.assembly.store)
    (held : invariant generator.store) (calls : List Call) :
    invariant (generator.performAll calls).store := by
  induction calls generalizing generator with
  | nil => exact held
  | cons call rest inductionHypothesis =>
    have performed : invariant (generator.perform call).store := by
      cases call with
      | generate versionText routes => exact generate_invariant empty runs held versionText routes
      | reset => exact empty
    have further := workshop_perform generator call ▸ runs
    exact inductionHypothesis further performed

end Generator

namespace Store

def Silent (store : Store) : Prop :=
  store.warnings = []

end Store

theorem Claim.Step.silent {claim : Claim} {earlier later : Progress}
    (step : claim.Step earlier later) (silent : earlier.assembly.store.Silent) :
    later.assembly.store.Silent := by
  cases step with
  | share _ _ _ _ => exact silent
  | drop _ _ _ => exact silent
  | accept _ _ _ _ => rfl

theorem Claim.run_silent (claims : List Claim) (begun : Assembly) (_none : begun.documented = [])
    (silent : begun.store.Silent) :
    (Claim.run claims (.start begun)).1.assembly.store.Silent :=
  @Claim.run_invariant (fun reached => reached.assembly.store.Silent) claims (.start begun) silent
    fun _ _ _ _ step => step.silent

/-- The warnings of a generation are all handed over, so none wait in the store
for the next one. -/
theorem Generator.performAll_silent {generator : Generator} (silent : generator.store.Silent)
    (calls : List Call) : (generator.performAll calls).store.Silent :=
  @performAll_invariant Store.Silent rfl generator (fun _ => Claim.run_silent _) silent calls

theorem Generator.beginning_silent {generator : Generator} (silent : generator.store.Silent)
    {begun : Assembly} (started : generator.beginning = .ok begun) : begun.store.Silent := by
  obtain ⟨-, store, -⟩ := beginning_eq_ok started
  rw [store]
  exact @startingStore_invariant Store.Silent rfl generator silent

/-! ## Routes without an action

They pass everything on, so nothing but the placeholders of their path is
documented and nothing can fail. -/

/-- The route that passes on what one method asks of a path. -/
def Route.passing (method : Method) (path : String) : Route where
  methods := [method]
  path := path
  joker := true

/-- The documentation of such an operation is read off the path. -/
theorem Workshop.build_passing (workshop : Workshop) (asked method : Method) (path : String) :
    (workshop.context (.passing asked path) method).build =
      .ok ((workshop.context (.passing asked path) method).operation
        { pathParameters :=
            (workshop.context (.passing asked path) method).placeholders.map Parameter.ofPath },
        {}) :=
  rfl

/-- Documents of such routes can always be made. -/
theorem Generator.generate_passing (settings : Settings) {versionText : String} {version : Version}
    (supported : Version.ofText? versionText = some version) {base : Entries Json}
    {begun : Assembly} (started : (unused settings base).beginning = .ok begun)
    (places : List (Method × String)) :
    ∃ document, ((unused settings base).generate versionText
      (places.map fun place => .passing place.1 place.2)).1 = .ok document := by
  have builds : ∀ claim ∈ (unused settings base).claims
      (places.map fun place => .passing place.1 place.2),
      ∃ operation built, claim.context.build = .ok (operation, built) := by
    intro claim member
    obtain ⟨route, documented, listed⟩ := List.mem_flatMap.mp member
    have given : route ∈ places.map fun place => Route.passing place.1 place.2 :=
      (List.mergeSort_perm _ _).mem_iff.mp (List.mem_filter.mp documented).1
    obtain ⟨place, -, rfl⟩ := List.mem_map.mp given
    obtain ⟨method, -, same⟩ := Workshop.mem_claimsOf _ listed
    rw [same]
    exact ⟨_, _, Workshop.build_passing _ place.1 method place.2⟩
  obtain ⟨reached, through⟩ := Claim.run_of_builds builds (.start begun)
  exact ⟨_, generate_fst supported started through⟩

/-! ## Routes with one field

The smallest routes with a component: they post one required field to one
path.  For such routes all steps of a generation can be followed. -/

/-- The route that posts one field. -/
def Route.posting (action : String) (rule : Rule) (url : String) : Route where
  methods := [.post]
  path := "/x"
  action := some action
  params := some (.fields [("name", rule)] {})
  server := some { url := url }

/-- What the operation of such a route is built from, with standard settings. -/
def OperationContext.posting (action : String) (rule : Rule) (url : String) : OperationContext :=
  (Generator.unused {} []).workshop.context (.posting action rule url) .post

def Claim.posting (action : String) (rule : Rule) (url : String) : Claim where
  context := .posting action rule url
  opening := true

/-- Routes of one path keep their order. -/
theorem Route.inPathOrder_posting (triples : List (String × Rule × String)) :
    inPathOrder (triples.map fun triple => posting triple.1 triple.2.1 triple.2.2) =
      triples.map fun triple => posting triple.1 triple.2.1 triple.2.2 := by
  apply List.mergeSort_of_pairwise
  rw [List.pairwise_map]
  apply List.pairwise_of_forall
  intro first second
  exact decide_eq_true (String.le_refl _)

theorem Generator.claims_posting (triples : List (String × Rule × String)) :
    (unused {} []).claims (triples.map fun triple => .posting triple.1 triple.2.1 triple.2.2) =
      triples.map fun triple => .posting triple.1 triple.2.1 triple.2.2 := by
  rw [claims, Route.inPathOrder_posting]
  induction triples with
  | nil => rfl
  | cons triple rest inductionHypothesis =>
    rw [List.map_cons, List.map_cons, ← inductionHypothesis]
    rfl

namespace OperationContext

theorem placeholders_posting (action : String) (rule : Rule) (url : String) :
    (posting action rule url).placeholders = [] := by
  change Path.placeholders (Path.normalize "/x") = []
  decide

/-- What such an operation takes: a body that refers to the component of its action. -/
def postingInputs (action : String) (fragment : Fragment) : Inputs where
  body := some
    { contentTypes := ["application/json"]
      schema := .ref action
      required := !(Fragment.requiredNames [("name", fragment)]).isEmpty }

end OperationContext

/-- The operation of such a route, when its field is converted to the fragment. -/
def Operation.posting (action : String) (rule : Rule) (url : String) (fragment : Fragment) :
    Operation :=
  (OperationContext.posting action rule url).operation
    (OperationContext.postingInputs action fragment)

namespace OperationContext

variable {rule : Rule} {fragment : Fragment}

theorem build_posting (action : String)
    (converted : MapperTable.builtin.convertFields [("name", rule)] = .ok [("name", fragment)])
    (url : String) :
    (posting action rule url).build =
      .ok (.posting action rule url fragment,
        ({} : Store).record
          ((Schema.inline (Fragment.object [("name", fragment)] {})).registrations action)) := by
  have outside : (posting action rule url).fieldsOutsidePath [("name", rule)] =
      .ok [("name", fragment)] :=
    fieldsOutsidePath_of_plain (placeholders_posting action rule url) converted
  have built : (posting action rule url).build = _ :=
    build_fields rfl rfl rfl rfl rfl outside [] [("name", fragment)] rfl rfl
  have lifted := (posting action rule url).bodyLiftings_of_action
    (rfl : List.isEmpty [("name", fragment)] = false) {} rfl
  have noQuery : (posting action rule url).queryLiftings [] = [] := rfl
  rw [built, placeholders_posting, lifted, noQuery, List.nil_append, Schema.registrationsOf_cons,
    Schema.registrationsOf_nil, List.append_nil]
  rfl

theorem refersTo_posting (action url : String) :
    (Operation.posting action rule url fragment).RefersTo action := by
  refine ⟨.ref action, ?_, Schema.mentions_ref.mpr rfl⟩
  rw [Operation.posting, inputs_operation]
  exact List.mem_cons_self

end OperationContext

def Fragment.requiredOf (type : SchemaType) : Fragment where
  schema := .typed type
  optional := false

namespace MapperTable

theorem convertEntries_cons {name : String} {rule : Rule} {scope : Scope} {fragment : Fragment}
    {rest : Entries Rule} {converted : Entries Fragment}
    (first : builtin.convert rule {} scope = .ok (some fragment))
    (others : builtin.convertEntries rest scope = .ok converted) :
    builtin.convertEntries ((name, rule) :: rest) scope = .ok ((name, fragment) :: converted) := by
  simp only [convertEntries, first, others, Except.map]

theorem convertFields_text (name : String) :
    builtin.convertFields [(name, .text)] = .ok [(name, .requiredOf .string)] := by
  simp only [convertFields, convertEntries, convert, Rule.text, RuleKind.tag, mapperFor, builtin,
    builtinMapper, Option.map_some, settle, convertKind, Mapper.plainSchema, Except.map]
  rfl

/-- A number without further options becomes the schema of its limits. -/
theorem convertFields_limits (name : String) (limits : NumberLimits) :
    builtin.convertFields [(name, { kind := .number limits })] =
      .ok [(name, { schema := .inline limits.schema, optional := false })] := by
  simp only [convertFields, convertEntries, convert, RuleKind.tag, mapperFor, builtin,
    builtinMapper, Option.map_some, settle, convertKind, Mapper.plainSchema, Except.map]
  rfl

theorem convertFields_number (name : String) :
    builtin.convertFields [(name, .number)] = .ok [(name, .requiredOf .number)] :=
  convertFields_limits name {}

end MapperTable

namespace Claim

variable {rule : Rule} {fragment : Fragment}

theorem run_posting (action : String)
    (converted : MapperTable.builtin.convertFields [("name", rule)] = .ok [("name", fragment)])
    (url : String) :
    ∃ reached, run [posting action rule url] (.start {}) = (reached, none) ∧
      reached.assembly.find? (posting action rule url).context.fullPath .post =
        some (.posting action rule url fragment) := by
  have free : (Progress.start {}).assembly.find? (posting action rule url).context.fullPath
      (posting action rule url).context.method = none := rfl
  have advanced := advance_of_free free (OperationContext.build_posting action converted url)
  exact ⟨_, run_cons_of_advance advanced [], Assembly.find?_accept_of_free free _ _⟩

end Claim

end RouteDocs
