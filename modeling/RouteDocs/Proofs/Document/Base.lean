import RouteDocs.Proofs.Document.Emitted
import RouteDocs.Proofs.Route.NormalPath

namespace RouteDocs

/-!
# What a document takes over from its base

A document says everything that its base says, apart from the version and the
lists of tags and servers, which are read and written anew.  Generated parts
are only laid where the base leaves a place free: a schema under a new name, an
operation under a new method of a path that is new or described by an object.
`Document.Extends` says for every place what stands there, so it also says that
nothing else is added.

Reserved keys are left out of the comparison.  They stand in no document, and
the path of an operation is never one of them.
-/

/-- A value has in a place what is given, apart from reserved keys. -/
def Json.Shows (value : Json) (keys : List String) (given : Option Json) : Prop :=
  value.at? keys = given.map Json.withoutReserved

theorem Json.shows_withoutReserved (value : Json) {keys : List String}
    (ordinary : ∀ key ∈ keys, isReserved key = false) :
    (Json.withoutReserved value).Shows keys (value.at? keys) :=
  at?_withoutReserved value ordinary

/-! ## The paths of operations -/

theorem Path.isReserved_normalize (path : String) : isReserved (normalize path) = false := by
  obtain ⟨others, begins⟩ := List.head?_eq_some_iff.mp (canonical_normalize path).begins
  have mark : reservedMark.toList = ['$', '$'] := by decide
  rw [isReserved, begins, mark]
  rfl

namespace Claim

theorem Step.ordinary {claim : Claim} {earlier later : Progress} (step : claim.Step earlier later)
    (normal : isReserved claim.context.fullPath = false)
    (ordinary : ∀ entry ∈ earlier.assembly.documented, isReserved entry.path = false) :
    ∀ entry ∈ later.assembly.documented, isReserved entry.path = false := by
  cases step with
  | share existing server found shared =>
    intro entry member
    obtain ⟨before, listed, rfl⟩ := List.mem_map.mp member
    split <;> exact ordinary before listed
  | drop existing found refused => exact ordinary
  | accept operation built free succeeded =>
    intro entry member
    rcases List.mem_append.mp member with listed | last
    · exact ordinary entry listed
    · rw [List.mem_singleton.mp last]
      exact normal

end Claim

theorem Workshop.run_ordinary (workshop : Workshop) (routes : List Route) {begun : Assembly}
    (none : begun.documented = []) :
    ∀ entry ∈ (Claim.run (workshop.claims routes) (.start begun)).1.assembly.documented,
      isReserved entry.path = false := by
  have start : ∀ entry ∈ (Progress.start begun).assembly.documented,
      isReserved entry.path = false := by
    rw [show (Progress.start begun).assembly = begun from rfl, none]
    exact fun _ member => nomatch member
  refine @Claim.run_invariant (fun reached => ∀ entry ∈ reached.assembly.documented,
    isReserved entry.path = false) _ (.start begun) start fun claim member _ _ step => ?_
  obtain ⟨route, -, listed⟩ := List.mem_flatMap.mp member
  obtain ⟨method, -, same⟩ := workshop.mem_claimsOf listed
  exact step.ordinary (same ▸ Path.isReserved_normalize route.path)

namespace Document

/-! ## The parts of a document -/

/-- What a document has in its places, beside a base and what was assembled. -/
structure Extends (base : Entries Json) (version : Version) (assembly : Assembly)
    (document : Json) : Prop where
  /-- A key for which nothing is generated is as in the base. -/
  own : ∀ name, isReserved name = false →
    name ∉ ["openapi", "tags", "servers", "paths", "components"] →
    document.Shows [name] (base.get? name)
  components : ∀ name, isReserved name = false → name ≠ "schemas" →
    document.Shows ["components", name] ((Json.object base).at? ["components", name])
  /-- A schema is that of the base, or else the stored component. -/
  schemas : ∀ name, isReserved name = false →
    document.Shows ["components", "schemas", name]
      (((Json.object base).at? ["components", "schemas", name]).or
        ((assembly.store.get? name).map (SchemaObject.render version)))
  /-- An operation is that of the base or else, at a path that takes operations,
  the generated one. -/
  operations : ∀ path method, isReserved path = false →
    document.Shows ["paths", path, method.key]
      (((Json.object base).at? ["paths", path, method.key]).or
        (if isOpen (Json.entriesOf (base.get? "paths")) path then
          (assembly.find? path method).map (Operation.render version) else none))
  /-- A key of a path that is no method is as in the base. -/
  otherKeys : ∀ path key, isReserved path = false → isReserved key = false →
    (∀ method : Method, key ≠ method.key) →
    document.Shows ["paths", path, key] ((Json.object base).at? ["paths", path, key])
  /-- A path is as in the base when it takes no operations there, or when none is generated. -/
  untouched : ∀ path, isReserved path = false →
    isOpen (Json.entriesOf (base.get? "paths")) path = false ∨
      (∀ method, assembly.find? path method = none) →
    document.Shows ["paths", path] ((Json.object base).at? ["paths", path])
  /-- No generated operation is lost with a reserved path. -/
  ordinary : ∀ path method operation, assembly.find? path method = some operation →
    isReserved path = false

variable {version : Version} {versionText : String} {base : Entries Json} {assembly : Assembly}

theorem get?_own_of_ne (distinct : base.names.Nodup) {name : String} (noPaths : name ≠ "paths")
    (noComponents : name ≠ "components") : (own base).get? name = base.get? name := by
  rw [own, Entries.get?_swapErase_of_ne (Entries.nodup_names_swapErase distinct "paths").1
    noComponents, Entries.get?_swapErase_of_ne distinct noPaths]

theorem shows_own (distinct : base.names.Nodup) {name : String} (ordinary : isReserved name = false)
    (other : name ∉ ["openapi", "tags", "servers", "paths", "components"]) :
    (render version versionText base assembly).Shows [name] (base.get? name) := by
  simp only [List.mem_cons, List.not_mem_nil, or_false, not_or] at other
  obtain ⟨noVersion, noTags, noServers, noPaths, noComponents⟩ := other
  have generated : (generatedParts version base assembly).get? name = none := by
    simp [generatedParts, Entries.get?, Ne.symm noTags, Ne.symm noServers, Ne.symm noPaths,
      Ne.symm noComponents]
  rw [Json.Shows, Json.at?, field?_render version versionText base assembly ordinary noVersion,
    get?_own_of_ne distinct noPaths noComponents, generated, Option.or_none]
  simp only [Json.at?, Option.bind_fun_some]

theorem shows_components (distinct : (Json.object base).keysDistinct = true) {name : String}
    (ordinary : isReserved name = false) (other : name ≠ "schemas") :
    (render version versionText base assembly).Shows ["components", name]
      ((Json.object base).at? ["components", name]) := by
  obtain ⟨names, inside⟩ := Json.keysDistinct_object.mp distinct
  have laid : (renderComponents version (base.get? "components") assembly.store).at? [name] =
      (Json.object base).at? ["components", name] := by
    rw [at?_pair]
    simp only [renderComponents, Json.at?, Json.field?_object, Option.bind_fun_some,
      Entries.get?_put_of_ne _ _ other,
      Entries.get?_swapErase_of_ne (Json.nodup_names_entriesOf inside "components") other,
      Json.get?_entriesOf]
  rw [Json.Shows, Json.at?, field?_components names, Option.bind_some, ← laid]
  exact Json.shows_withoutReserved _ fun key member => List.mem_singleton.mp member ▸ ordinary

theorem shows_schemas (distinct : base.names.Nodup) {name : String}
    (ordinary : isReserved name = false) :
    (render version versionText base assembly).Shows ["components", "schemas", name]
      (((Json.object base).at? ["components", "schemas", name]).or
        ((assembly.store.get? name).map (SchemaObject.render version))) := by
  obtain ⟨schemas, whole, values⟩ := at?_schemas version versionText assembly distinct
  have inside : (render version versionText base assembly).at?
      (["components", "schemas"] ++ [name]) =
        (Json.object (Json.withoutReservedEntries schemas)).at? [name] := by
    rw [Json.at?_append, whole, Option.bind_some]
  rw [Json.Shows, ← values, ← Json.get?_withoutReservedEntries schemas ordinary]
  refine inside.trans ?_
  simp only [Json.at?, Json.field?_object, Option.bind_fun_some]

/-- What stands in the paths, apart from reserved keys. -/
theorem shows_paths (distinct : base.names.Nodup) {keys : List String}
    (ordinary : ∀ key ∈ keys, isReserved key = false) :
    (render version versionText base assembly).Shows ("paths" :: keys)
      ((renderPaths version (base.get? "paths") assembly.documented).at? keys) := by
  rw [Json.Shows, Json.at?, field?_paths distinct, Option.bind_some]
  exact Json.shows_withoutReserved _ ordinary

/-- What stands under a key of a path: what the base has there or, where the path
takes operations, the one that is documented under the key. -/
theorem shows_key (distinct : (Json.object base).keysDistinct = true)
    (apart : (assembly.documented.map Documented.place).Nodup) {path key : String}
    (ordinary : isReserved path = false) (plain : isReserved key = false) :
    (render version versionText base assembly).Shows ["paths", path, key]
      (((Json.object base).at? ["paths", path, key]).or
        (if isOpen (Json.entriesOf (base.get? "paths")) path then
          (assembly.documented.find? fun entry => entry.path == path && entry.method.key == key).map
            fun entry => entry.operation.render version
        else none)) := by
  have keys : ∀ part ∈ [path, key], isReserved part = false := by simp [ordinary, plain]
  rw [← at?_renderPaths_key distinct apart]
  exact shows_paths (Json.keysDistinct_object.mp distinct).1 keys

theorem shows_operation (distinct : (Json.object base).keysDistinct = true)
    (apart : (assembly.documented.map Documented.place).Nodup) {path : String}
    (ordinary : isReserved path = false) (method : Method) :
    (render version versionText base assembly).Shows ["paths", path, method.key]
      (((Json.object base).at? ["paths", path, method.key]).or
        (if isOpen (Json.entriesOf (base.get? "paths")) path then
          (assembly.find? path method).map (Operation.render version) else none)) := by
  have sameKey : ∀ other : Method, (other.key == method.key) = (other == method) := fun other => by
    rw [Bool.eq_iff_iff, beq_iff_eq, beq_iff_eq, Method.key_injective.eq_iff]
  have shown : (render version versionText base assembly).Shows ["paths", path, method.key] _ :=
    shows_key distinct apart ordinary method.key_ordinary
  simp only [sameKey] at shown
  rw [Assembly.find?, Option.map_map]
  exact shown

theorem shows_otherKey (distinct : (Json.object base).keysDistinct = true)
    (apart : (assembly.documented.map Documented.place).Nodup) {path key : String}
    (ordinary : isReserved path = false) (plain : isReserved key = false)
    (noMethod : ∀ method : Method, key ≠ method.key) :
    (render version versionText base assembly).Shows ["paths", path, key]
      ((Json.object base).at? ["paths", path, key]) := by
  have absent : (assembly.documented.find? fun entry =>
      entry.path == path && entry.method.key == key) = none := by
    refine List.find?_eq_none.mpr fun entry _ => ?_
    simp [Ne.symm (noMethod entry.method)]
  have shown : (render version versionText base assembly).Shows ["paths", path, key] _ :=
    shows_key distinct apart ordinary plain
  rw [absent, Option.map_none, ite_self, Option.or_none] at shown
  exact shown

/-- Operations are laid neither at a path that is no object nor at other paths than their own. -/
theorem get?_laid_untouched {documented : List Documented} {paths : Entries Json} {path : String}
    (untouched : isOpen paths path = false ∨ ∀ entry ∈ documented, entry.path ≠ path) :
    (documented.foldl (layOperation version) paths).get? path = paths.get? path := by
  induction documented generalizing paths with
  | nil => rfl
  | cons entry rest inductionHypothesis =>
    have still : (layOperation version paths entry).get? path = paths.get? path := by
      by_cases here : path = entry.path
      · subst here
        have closed := untouched.resolve_right fun elsewhere =>
          elsewhere entry List.mem_cons_self rfl
        unfold isOpen at closed
        unfold layOperation
        split <;> simp_all
      · exact get?_layOperation_elsewhere paths here
    rw [List.foldl_cons, inductionHypothesis, still]
    rw [isOpen_layOperation]
    exact untouched.imp_right fun elsewhere other member =>
      elsewhere other (List.mem_cons_of_mem entry member)

theorem shows_untouched (distinct : (Json.object base).keysDistinct = true) {path : String}
    (ordinary : isReserved path = false)
    (untouched : isOpen (Json.entriesOf (base.get? "paths")) path = false ∨
      ∀ method, assembly.find? path method = none) :
    (render version versionText base assembly).Shows ["paths", path]
      ((Json.object base).at? ["paths", path]) := by
  obtain ⟨names, inside⟩ := Json.keysDistinct_object.mp distinct
  let inOrder := assembly.documented.mergeSort fun first second =>
    decide (first.method.rank ≤ second.method.rank)
  have sorted := nodup_names_laid version inOrder (Json.nodup_names_entriesOf inside "paths")
  have elsewhere : isOpen (Json.entriesOf (base.get? "paths")) path = false ∨
      ∀ entry ∈ inOrder, entry.path ≠ path := by
    refine untouched.imp_right fun free entry member here => ?_
    have absent := List.find?_eq_none.mp (Option.map_eq_none_iff.mp (free entry.method)) entry
      (List.mem_mergeSort.mp member)
    simp [here] at absent
  have kept : (renderPaths version (base.get? "paths") assembly.documented).at? [path] =
      (Json.object base).at? ["paths", path] := by
    rw [at?_pair, ← Json.get?_entriesOf, ← get?_laid_untouched elsewhere,
      ← get?_sortedByName sorted]
    simp only [renderPaths, Json.at?, Json.field?_object, Option.bind_fun_some]
    rfl
  rw [← kept]
  exact shows_paths names fun key member => List.mem_singleton.mp member ▸ ordinary

/-- A document extends the base that it is rendered over. -/
theorem render_extends (version : Version) (versionText : String)
    (distinct : (Json.object base).keysDistinct = true)
    (apart : (assembly.documented.map Documented.place).Nodup)
    (ordinary : ∀ entry ∈ assembly.documented, isReserved entry.path = false) :
    Extends base version assembly (render version versionText base assembly) where
  own name plain other := shows_own (Json.keysDistinct_object.mp distinct).1 plain other
  components name plain other := shows_components distinct plain other
  schemas name plain := shows_schemas (Json.keysDistinct_object.mp distinct).1 plain
  operations path method normal := shows_operation distinct apart normal method
  otherKeys path key normal plain noMethod := shows_otherKey distinct apart normal plain noMethod
  untouched path normal free := shows_untouched distinct normal free
  ordinary path method operation found := by
    obtain ⟨entry, listed, -⟩ := Option.map_eq_some_iff.mp found
    have here := List.find?_some listed
    simp only [Bool.and_eq_true, beq_iff_eq] at here
    exact here.1 ▸ ordinary entry (List.mem_of_find?_eq_some listed)

/-- The version and the lists of tags and servers of a base do not count here. -/
theorem Extends.of_same {other : Entries Json} {document : Json}
    (held : Extends base version assembly document)
    (same : ∀ name, name ∉ ["openapi", "tags", "servers"] → base.get? name = other.get? name) :
    Extends other version assembly document := by
  have below : ∀ name rest, name ∉ ["openapi", "tags", "servers"] →
      (Json.object base).at? (name :: rest) = (Json.object other).at? (name :: rest) := by
    intro name rest counts
    rw [Json.at?, Json.at?, Json.field?_object, Json.field?_object, same name counts]
  have components := fun rest => below "components" rest (by decide)
  have paths := fun rest => below "paths" rest (by decide)
  have opened := same "paths" (by decide)
  exact
    { own := fun name plain others => by
        rw [← same name fun listed => others (List.mem_append_left ["paths", "components"] listed)]
        exact held.own name plain others
      components := fun name plain others => components _ ▸ held.components name plain others
      schemas := fun name plain => components _ ▸ held.schemas name plain
      operations := fun path method normal => paths _ ▸ opened ▸ held.operations path method normal
      otherKeys := fun path key normal plain noMethod =>
        paths _ ▸ held.otherKeys path key normal plain noMethod
      untouched := fun path normal free =>
        paths _ ▸ held.untouched path normal (opened.symm ▸ free)
      ordinary := held.ordinary }

end Document

namespace Generator

theorem get?_baseRest {base : Entries Json} (distinct : base.names.Nodup) {name : String}
    (counts : name ∉ ["openapi", "tags", "servers"]) :
    (baseRest base).get? name = base.get? name := by
  simp only [List.mem_cons, List.not_mem_nil, or_false, not_or] at counts
  obtain ⟨noVersion, noTags, noServers⟩ := counts
  have first := (Entries.nodup_names_swapErase distinct "openapi").1
  have second := (Entries.nodup_names_swapErase first "tags").1
  rw [baseRest, Entries.get?_swapErase_of_ne second noServers,
    Entries.get?_swapErase_of_ne first noTags, Entries.get?_swapErase_of_ne distinct noVersion]

/-- A document extends the base of its generator: all that the base says stands
in it, and everything else is a stored component or a generated operation.  No key
stands twice in a base that has been read (`keysDistinct_base_of_read?`). -/
theorem generate_extends_base (generator : Generator)
    (distinct : (Json.object generator.base).keysDistinct = true) {versionText : String}
    {routes : List Route} {document : Json}
    (succeeded : (generator.generate versionText routes).1 = .ok document) :
    ∃ version assembly, Version.ofText? versionText = some version ∧
      generator.assemble routes = .ok (assembly, none) ∧
      (generator.generate versionText routes).2.store = assembly.store ∧
      Document.Extends generator.base version assembly document := by
  obtain ⟨version, begun, reached, supported, started, ran, rfl, after⟩ :=
    generate_eq_ok succeeded
  have none := (beginning_eq_ok started).1
  have apart := Claim.run_apart (generator.claims routes) none
  have ordinary := generator.workshop.run_ordinary (Route.inPathOrder routes) none
  rw [ran] at apart
  rw [show generator.workshop.claims (Route.inPathOrder routes) = generator.claims routes from rfl,
    ran] at ordinary
  have names := (Json.keysDistinct_object.mp distinct).1
  have rest : (Json.object (baseRest generator.base)).keysDistinct = true :=
    Json.keysDistinct_object.mpr (keysDistinct_baseRest distinct)
  refine ⟨version, reached.assembly, supported, ?_, by rw [after], ?_⟩
  · simp only [assemble_eq_run, started, Except.map, ran]
  · exact (Document.render_extends version versionText rest apart ordinary).of_same
      fun name counts => get?_baseRest names counts

/-- A base with a text, a component, a path that is no object and a path with a summary. -/
def handWritten : Entries Json :=
  [("info", .text "kept"),
   ("components", .object [("links", .null), ("schemas", .object [("a", .object [])])]),
   ("paths", .object [("/b", .text "closed"), ("/c", .object [("summary", .text "kept")])])]

theorem generate_extends_base_handWritten :
    ∃ document,
      ((unused {} handWritten).generate "3.0" [.passing .get "/b", .passing .get "/c"]).1 =
        .ok document ∧
      document.at? ["info"] = some (.text "kept") ∧
      document.at? ["components", "links"] = some .null ∧
      document.at? ["components", "schemas", "a"] = some (.object []) ∧
      document.at? ["paths", "/b"] = some (.text "closed") ∧
      document.at? ["paths", "/c", "summary"] = some (.text "kept") := by
  obtain ⟨document, succeeded⟩ := generate_passing {}
    (by decide : Version.ofText? "3.0" = some .v30)
    (rfl : (unused {} handWritten).beginning = .ok _) [(.get, "/b"), (.get, "/c")]
  have distinct : (Json.object (unused {} handWritten).base).keysDistinct = true := by decide
  obtain ⟨version, assembly, -, -, -, held⟩ :=
    generate_extends_base (unused {} handWritten) distinct succeeded
  have noMethod : ∀ method : Method, "summary" ≠ method.key := fun method => by
    cases method <;> decide
  refine ⟨document, succeeded, ?_, ?_, ?_, ?_, ?_⟩
  · exact (held.own "info" (by decide) (by decide)).trans rfl
  · exact (held.components "links" (by decide) (by decide)).trans rfl
  · exact (held.schemas "a" (by decide)).trans rfl
  · exact (held.untouched "/b" (by decide) (Or.inl rfl)).trans rfl
  · exact (held.otherKeys "/c" "summary" (by decide) (by decide) noMethod).trans rfl

end Generator
end RouteDocs
