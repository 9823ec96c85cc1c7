import RouteDocs.Proofs.Document.PathOrder
import RouteDocs.Proofs.Document.ClaimedOnce
import RouteDocs.Proofs.Document.References
import RouteDocs.Proofs.Schema.Rendered

namespace RouteDocs

/-!
# Where the references of a document lead

The store is closed, so every reference of an operation or a component leads to
a component of the store.  In the document two things happen to components.
They are laid beside those of the base, which loses no name.  Then every
reserved key is taken out, wherever it stands, and the sweep takes the name of
a component for a key like any other.  The reference to such a component is a
value and stays.

So a reference leads somewhere exactly when the name in it is not reserved.
Names of components begin with the name of an action, and nothing keeps an
action from beginning with the reserved mark.
-/

/-! ## What a document has at a place -/

theorem Method.key_injective : Function.Injective Method.key := by
  intro first second same
  cases first <;> cases second <;> first | rfl | exact absurd same (by decide)

theorem Method.key_ordinary (method : Method) : isReserved method.key = false := by
  cases method <;> decide

namespace Document

theorem get?_sortedByName {entries : Entries Json} (distinct : entries.names.Nodup)
    (name : String) : entries.sortedByName.get? name = entries.get? name := by
  have order : entries.sortedByName.Perm entries := List.mergeSort_perm _ _
  have still : entries.sortedByName.names.Nodup := (order.map Prod.fst).nodup_iff.mpr distinct
  cases found : entries.get? name with
  | some value =>
    exact Entries.get?_of_mem still (order.mem_iff.mpr (Entries.mem_of_get?_eq_some found))
  | none =>
    apply Entries.get?_of_absent
    intro present
    obtain ⟨value, held⟩ :=
      Entries.mem_names_iff.mp ((order.map Prod.fst).mem_iff.mp present)
    rw [found] at held
    cases held

/-- The value under a key of the value under a key. -/
theorem at?_pair (entries : Entries Json) (first second : String) :
    (Json.object entries).at? [first, second] =
      (entries.get? first).bind fun inner => inner.field? second := by
  simp only [Json.at?, Json.field?_object, Option.bind_fun_some]

/-- Operations can be laid at a path that is new or described by an object. -/
def isOpen (paths : Entries Json) (path : String) : Bool :=
  match paths.get? path with
  | none => true
  | some (.object _) => true
  | some _ => false

variable {version : Version} {path key : String}

theorem get?_layOperation_elsewhere (paths : Entries Json) {entry : Documented}
    (elsewhere : path ≠ entry.path) :
    (layOperation version paths entry).get? path = paths.get? path := by
  unfold layOperation
  split
  · exact Entries.get?_put_of_ne _ _ elsewhere
  · exact Entries.get?_put_of_ne _ _ elsewhere
  · rfl

theorem isOpen_layOperation (paths : Entries Json) (entry : Documented) :
    isOpen (layOperation version paths entry) path = isOpen paths path := by
  by_cases here : path = entry.path
  · subst here
    unfold layOperation isOpen
    cases before : paths.get? entry.path with
    | none => simp
    | some value => cases value <;> simp [before]
  · rw [isOpen, get?_layOperation_elsewhere paths here, isOpen]

/-- Laying an operation adds it in its place, if it is free, and nothing elsewhere. -/
theorem at?_layOperation (paths : Entries Json) (entry : Documented) :
    (Json.object (layOperation version paths entry)).at? [path, key] =
      ((Json.object paths).at? [path, key]).or
        (if isOpen paths path && (entry.path == path && entry.method.key == key)
          then some (entry.operation.render version) else none) := by
  rw [at?_pair, at?_pair]
  by_cases here : path = entry.path
  · subst here
    unfold layOperation isOpen
    cases before : paths.get? entry.path with
    | none => simp [Entries.get?]
    | some value =>
      cases value with
      | object item =>
        by_cases same : key = entry.method.key
        · simp [Entries.get?_putNew, same]
        · simp [Entries.get?_putNew, same, Ne.symm same]
      | _ => simp [before]
  · have elsewhere : (entry.path == path) = false := beq_eq_false_iff_ne.mpr (Ne.symm here)
    simp [get?_layOperation_elsewhere paths here, elsewhere]

/-- Of several operations for one place the first is laid. -/
theorem at?_laid (documented : List Documented) (paths : Entries Json) :
    (Json.object (documented.foldl (layOperation version) paths)).at? [path, key] =
      ((Json.object paths).at? [path, key]).or
        (if isOpen paths path then
          (documented.find? fun entry => entry.path == path && entry.method.key == key).map
            fun entry => entry.operation.render version
        else none) := by
  induction documented generalizing paths with
  | nil => simp
  | cons entry rest inductionHypothesis =>
    rw [List.foldl_cons, inductionHypothesis, isOpen_layOperation, at?_layOperation,
      Option.or_assoc, List.find?_cons]
    congr 1
    cases isOpen paths path <;> cases entry.path == path && entry.method.key == key <;> simp

variable {versionText : String} {base : Entries Json} {assembly : Assembly}

theorem field?_paths (distinct : base.names.Nodup) :
    (render version versionText base assembly).field? "paths" =
      some (Json.withoutReserved
        (renderPaths version (base.get? "paths") assembly.documented)) := by
  rw [field?_render version versionText base assembly (by decide) (by decide),
    get?_own distinct (Or.inl rfl)]
  rfl

theorem field?_components (distinct : base.names.Nodup) :
    (render version versionText base assembly).field? "components" =
      some (Json.withoutReserved
        (renderComponents version (base.get? "components") assembly.store)) := by
  rw [field?_render version versionText base assembly (by decide) (by decide),
    get?_own distinct (Or.inr rfl)]
  rfl

/-- Operations of different places are found in every order. -/
theorem find?_place_of_mem {documented : List Documented}
    (apart : (documented.map Documented.place).Nodup) {entry : Documented}
    (listed : entry ∈ documented) :
    (documented.find? fun other =>
      other.path == entry.path && other.method.key == entry.method.key) = some entry := by
  cases found : documented.find? fun other =>
      other.path == entry.path && other.method.key == entry.method.key with
  | none =>
    have absent := List.find?_eq_none.mp found entry listed
    simp at absent
  | some other =>
    have here := List.find?_some found
    simp only [Bool.and_eq_true, beq_iff_eq] at here
    have place : other.place = entry.place := Prod.ext here.1 (Method.key_injective here.2)
    rw [List.inj_on_of_nodup_map apart (List.mem_of_find?_eq_some found) listed place]

theorem find?_place_of_perm {documented others : List Documented} (same : others.Perm documented)
    (apart : (documented.map Documented.place).Nodup) :
    (others.find? fun entry => entry.path == path && entry.method.key == key) =
      documented.find? fun entry => entry.path == path && entry.method.key == key := by
  cases found : documented.find? fun entry => entry.path == path && entry.method.key == key with
  | none =>
    rw [List.find?_eq_none] at found ⊢
    exact fun entry member => found entry (same.mem_iff.mp member)
  | some entry =>
    have here := List.find?_some found
    simp only [Bool.and_eq_true, beq_iff_eq] at here
    obtain ⟨rfl, rfl⟩ := here
    exact find?_place_of_mem ((same.map Documented.place).nodup_iff.mpr apart)
      (same.mem_iff.mpr (List.mem_of_find?_eq_some found))

/-- What a document has for a key at a path: what the base has there or, if the
path is open to operations, the one that was documented. -/
theorem at?_renderPaths_key (distinct : (Json.object base).keysDistinct = true)
    (apart : (assembly.documented.map Documented.place).Nodup) :
    (renderPaths version (base.get? "paths") assembly.documented).at? [path, key] =
      ((Json.object base).at? ["paths", path, key]).or
        (if isOpen (Json.entriesOf (base.get? "paths")) path then
          (assembly.documented.find? fun entry => entry.path == path && entry.method.key == key).map
            fun entry => entry.operation.render version
        else none) := by
  let inOrder := assembly.documented.mergeSort fun first second =>
    decide (first.method.rank ≤ second.method.rank)
  have sorted := nodup_names_laid version inOrder
    (Json.nodup_names_entriesOf (Json.keysDistinct_object.mp distinct).2 "paths")
  have only : (inOrder.find? fun entry => entry.path == path && entry.method.key == key) = _ :=
    find?_place_of_perm (List.mergeSort_perm _ _) apart
  -- Sorting by method comes before the laying and sorting by name after it; neither matters here,
  -- because no other operation has this place and no path is written twice.
  rw [renderPaths, at?_pair, get?_sortedByName sorted, ← at?_pair, at?_laid, only, at?_pair,
    Json.get?_entriesOf, Option.bind_assoc]
  simp only [Json.at?, Json.field?_object, Option.bind_fun_some]

theorem at?_renderPaths (distinct : (Json.object base).keysDistinct = true)
    (apart : (assembly.documented.map Documented.place).Nodup) {entry : Documented}
    (documented : entry ∈ assembly.documented) :
    (renderPaths version (base.get? "paths") assembly.documented).at?
        [entry.path, entry.method.key] =
      ((Json.object base).at? ["paths", entry.path, entry.method.key]).or
        (if isOpen (Json.entriesOf (base.get? "paths")) entry.path then
          some (entry.operation.render version) else none) := by
  rw [at?_renderPaths_key distinct apart, find?_place_of_mem apart documented, Option.map_some]

/-- The schemas of a document: those of the base, under them those of the store,
and of both only what is not reserved. -/
theorem at?_schemas (version : Version) (versionText : String) (assembly : Assembly)
    (distinct : base.names.Nodup) :
    ∃ schemas : Entries Json,
      (render version versionText base assembly).at? ["components", "schemas"] =
        some (.object (Json.withoutReservedEntries schemas)) ∧
      ∀ name, schemas.get? name =
        ((Json.object base).at? ["components", "schemas", name]).or
          ((assembly.store.get? name).map (SchemaObject.render version)) := by
  let known := Json.entriesOf ((Json.entriesOf (base.get? "components")).get? "schemas")
  let schemas : Entries Json := (assembly.store.render version).foldl
    (fun schemas entry => schemas.putNew entry.1 entry.2) known
  refine ⟨schemas, ?_, ?_⟩
  · have laid : (renderComponents version (base.get? "components") assembly.store).field?
        "schemas" = some (.object schemas) := Entries.get?_put_self _ _ _
    rw [Json.at?, field?_components distinct, Option.bind_some, Json.at?,
      Json.field?_withoutReserved _ (by decide), laid, Option.map_some, Option.bind_some,
      Json.at?, Json.withoutReserved_object]
  · intro name
    have stored : (assembly.store.render version).get? name =
        (assembly.store.get? name).map (SchemaObject.render version) := by
      rw [Store.render, Entries.get?_mapValues]
      rfl
    have there : known.get? name = (Json.object base).at? ["components", "schemas", name] := by
      simp only [known, Json.get?_entriesOf, Json.at?, Json.field?_object, Option.bind_fun_some,
        Option.bind_assoc]
    rw [Entries.get?_foldl_putNew, there, stored]

end Document

namespace Operation

/-- The keys that an operation itself writes. -/
def ownEntries (version : Version) (operation : Operation) : List (String × Option Json) :=
  [("tags", nonEmpty (operation.tags.map .text)),
   ("summary", operation.summary.map .text),
   ("description", operation.description.map .text),
   ("operationId", operation.operationId.map .text),
   ("deprecated", operation.deprecated.map .bool),
   ("parameters", nonEmpty (operation.inputs.parameters.map (Parameter.render version))),
   ("requestBody", operation.inputs.body.map (RequestBody.render version)),
   ("responses", some operation.responses),
   ("security", operation.security),
   ("servers", nonEmpty (operation.servers.map Server.toJson))]

/-- Further keys of the documentation replace nothing that an operation writes. -/
theorem field?_render {version : Version} {operation : Operation} {name : String} {value : Json}
    (written : (name, some value) ∈ operation.ownEntries version) :
    (operation.render version).field? name = some value := by
  have distinct : ((operation.ownEntries version).map Prod.fst).Nodup := by
    simp only [ownEntries, List.map_cons, List.map_nil]
    decide
  have own : (Json.ofOptional (operation.ownEntries version)).get? name = some value :=
    Json.get?_ofOptional distinct written
  change (List.foldl _ (Json.ofOptional (operation.ownEntries version)) _).get? name = _
  rw [Entries.get?_foldl_putNew, own, Option.some_or]

/-- The schema of the body stands under each of its types of content. -/
theorem at?_body {version : Version} {operation : Operation} {body : RequestBody}
    (given : operation.inputs.body = some body) (contentType : String) :
    (operation.render version).at? ["requestBody", "content", contentType, "schema"] =
      if contentType ∈ body.contentTypes then some (body.schema.render version) else none := by
  have written : (operation.render version).field? "requestBody" = some (body.render version) :=
    field?_render (by simp [ownEntries, given])
  have content : (body.render version).field? "content" =
      some (.object (Entries.ofPairs (body.contentTypes.map fun contentType =>
        (contentType, Json.object [("schema", body.schema.render version)])))) := rfl
  rw [Json.at?, written, Option.bind_some, Json.at?, content, Option.bind_some, Document.at?_pair,
    Entries.ofPairs, Entries.get?_overlay_map]
  split <;> rfl

/-- The schema of a written parameter, when the operation has parameters of its own. -/
theorem exists_of_shown_parameter {version : Version} {operation : Operation}
    (own : operation.inputs.parameters ≠ []) {shown schema : Json}
    (listed : shown ∈ Json.itemsOf
      ((Json.withoutReserved (operation.render version)).field? "parameters"))
    (described : shown.field? "schema" = some schema) :
    ∃ source ∈ operation.inputs.schemas,
      schema = Json.withoutReserved (source.render version) := by
  have some : nonEmpty (operation.inputs.parameters.map (Parameter.render version)) =
      some (.list (operation.inputs.parameters.map (Parameter.render version))) := by
    simp [nonEmpty, own]
  have written : (operation.render version).field? "parameters" =
      .some (.list (operation.inputs.parameters.map (Parameter.render version))) :=
    field?_render (by simp [ownEntries, some])
  rw [Json.field?_withoutReserved _ (by decide), written, Json.itemsOf_withoutReserved] at listed
  obtain ⟨original, member, rfl⟩ := List.mem_map.mp listed
  obtain ⟨parameter, given, rfl⟩ := List.mem_map.mp member
  have inside : (parameter.render version).field? "schema" =
      .some (parameter.schema.render version) := by
    rw [Parameter.render, Json.field?_object]
    apply Json.get?_ofOptional
    · simp only [List.map_cons, List.map_nil]
      decide
    · simp
  rw [Json.field?_withoutReserved _ (by decide), inside, Option.map_some] at described
  exact ⟨parameter.schema, List.mem_append_left _ (List.mem_map_of_mem given),
    (Option.some.inj described).symm⟩

/-- The schema of a written body, under whatever type of content. -/
theorem exists_of_shown_body {version : Version} {operation : Operation}
    (own : operation.inputs.body ≠ none) {contentType : String} {schema : Json}
    (shown : (Json.withoutReserved (operation.render version)).at?
      ["requestBody", "content", contentType, "schema"] = some schema) :
    ∃ source ∈ operation.inputs.schemas,
      schema = Json.withoutReserved (source.render version) := by
  obtain ⟨body, given⟩ := Option.ne_none_iff_exists'.mp own
  obtain ⟨original, reached, rfl⟩ := Json.at?_of_withoutReserved shown
  rw [at?_body given] at reached
  split at reached
  · cases reached
    exact ⟨body.schema, by simp [Inputs.schemas, given], rfl⟩
  · cases reached

end Operation

/-! ## What is emitted -/

/-- The schemas that a document shows because they were generated: those of
the parameters and the body of an operation, and the components.  What the base
has in such a place stays and is not emitted; neither are parameters or a body
that the documentation of a route spells out by itself. -/
inductive Assembly.Emits (assembly : Assembly) (base : Entries Json) (document : Json) :
    Json → Prop where
  | parameter {entry : Documented} {operation parameter schema : Json}
      (documented : entry ∈ assembly.documented)
      (own : entry.operation.inputs.parameters ≠ [])
      (free : (Json.object base).at? ["paths", entry.path, entry.method.key] = none)
      (shown : document.at? ["paths", entry.path, entry.method.key] = some operation)
      (listed : parameter ∈ Json.itemsOf (operation.field? "parameters"))
      (described : parameter.field? "schema" = some schema) : Emits assembly base document schema
  | body {entry : Documented} {contentType : String} {schema : Json}
      (documented : entry ∈ assembly.documented)
      (own : entry.operation.inputs.body ≠ none)
      (free : (Json.object base).at? ["paths", entry.path, entry.method.key] = none)
      (shown : document.at? (["paths", entry.path, entry.method.key] ++
        ["requestBody", "content", contentType, "schema"]) = some schema) :
      Emits assembly base document schema
  | component {name : String} {schema : Json} (stored : name ∈ assembly.store.names)
      (free : (Json.object base).at? ["components", "schemas", name] = none)
      (shown : document.at? ["components", "schemas", name] = some schema) :
      Emits assembly base document schema

/-- The schemas of an assembly: those of its operations and its components. -/
inductive Assembly.HasSchema (assembly : Assembly) : Schema → Prop where
  | ofOperation {entry : Documented} {schema : Schema} (documented : entry ∈ assembly.documented)
      (taken : schema ∈ entry.operation.inputs.schemas) : HasSchema assembly schema
  | ofComponent {name : String} {object : SchemaObject}
      (held : assembly.store.get? name = some object) : HasSchema assembly (.inline object)

/-- A base that leaves more free lets more be emitted. -/
theorem Assembly.Emits.of_free {assembly : Assembly} {base other : Entries Json} {document : Json}
    {schema : Json} (emits : assembly.Emits base document schema)
    (free : ∀ {name : String} {rest : List String}, (Json.object base).at? (name :: rest) = none →
      (Json.object other).at? (name :: rest) = none) : assembly.Emits other document schema := by
  cases emits with
  | parameter documented own unclaimed shown listed described =>
    exact .parameter documented own (free unclaimed) shown listed described
  | body documented own unclaimed shown => exact .body documented own (free unclaimed) shown
  | component stored unclaimed shown => exact .component stored (free unclaimed) shown

/-- The names under which a document has schemas. -/
def Json.schemaNames (document : Json) : List String :=
  (Json.entriesOf (document.at? ["components", "schemas"])).names

namespace Claim

/-- No two operations are documented for one method at one path. -/
theorem Step.apart {claim : Claim} {earlier later : Progress} (step : claim.Step earlier later)
    (apart : (earlier.assembly.documented.map Documented.place).Nodup) :
    (later.assembly.documented.map Documented.place).Nodup := by
  cases step with
  | share existing server found shared =>
    have places : ∀ entry : Documented,
        (if entry.path == claim.context.fullPath && entry.method == claim.context.method then
          { entry with operation :=
              { entry.operation with servers := entry.operation.servers ++ [server] } }
        else entry).place = entry.place := fun entry => by split <;> rfl
    simp only [Assembly.share, List.map_map, Function.comp_def, places]
    exact apart
  | drop existing found refused => exact apart
  | accept operation built free succeeded =>
    have fresh : claim.context.place ∉ earlier.assembly.documented.map Documented.place := by
      intro present
      obtain ⟨entry, listed, here⟩ := List.mem_map.mp present
      have absent := List.find?_eq_none.mp (Option.map_eq_none_iff.mp free) entry listed
      obtain ⟨samePath, sameMethod⟩ := Prod.mk.inj here
      simp [samePath, sameMethod] at absent
    change ((earlier.assembly.documented ++ [_]).map Documented.place).Nodup
    rw [List.map_append, List.nodup_append]
    refine ⟨apart, List.nodup_singleton _, ?_⟩
    rintro place member _ last rfl
    rw [List.mem_singleton.mp last] at member
    exact fresh member

theorem run_apart (claims : List Claim) {begun : Assembly} (none : begun.documented = []) :
    ((run claims (.start begun)).1.assembly.documented.map Documented.place).Nodup := by
  have start : ((Progress.start begun).assembly.documented.map Documented.place).Nodup := by
    rw [show (Progress.start begun).assembly = begun from rfl, none]
    exact List.nodup_nil
  exact @run_invariant (fun reached => (reached.assembly.documented.map Documented.place).Nodup)
    claims (.start begun) start fun _ _ _ _ step => step.apart

end Claim

namespace Document

variable {version : Version} {versionText : String} {base : Entries Json} {assembly : Assembly}

/-- What a document has in the place of a documented operation that the base
leaves free is this operation. -/
theorem shown_eq (distinct : (Json.object base).keysDistinct = true)
    (apart : (assembly.documented.map Documented.place).Nodup) {entry : Documented}
    (documented : entry ∈ assembly.documented)
    (free : (Json.object base).at? ["paths", entry.path, entry.method.key] = none) {shown : Json}
    (found : (render version versionText base assembly).at?
      ["paths", entry.path, entry.method.key] = some shown) :
    shown = Json.withoutReserved (entry.operation.render version) := by
  rw [Json.at?, field?_paths (Json.keysDistinct_object.mp distinct).1, Option.bind_some] at found
  obtain ⟨original, reached, rfl⟩ := Json.at?_of_withoutReserved found
  rw [at?_renderPaths distinct apart documented, free, Option.none_or] at reached
  split at reached
  · cases reached
    rfl
  · cases reached

/-- A documented operation is shown when the base leaves its place free and open. -/
theorem shows (distinct : (Json.object base).keysDistinct = true)
    (apart : (assembly.documented.map Documented.place).Nodup) {entry : Documented}
    (documented : entry ∈ assembly.documented)
    (free : (Json.object base).at? ["paths", entry.path, entry.method.key] = none)
    (opened : isOpen (Json.entriesOf (base.get? "paths")) entry.path = true)
    (ordinary : isReserved entry.path = false) :
    (render version versionText base assembly).at? ["paths", entry.path, entry.method.key] =
      some (Json.withoutReserved (entry.operation.render version)) := by
  have keys : ∀ key ∈ [entry.path, entry.method.key], isReserved key = false := by
    simp [ordinary, Method.key_ordinary]
  rw [Json.at?, field?_paths (Json.keysDistinct_object.mp distinct).1, Option.bind_some,
    Json.at?_withoutReserved _ keys, at?_renderPaths distinct apart documented, free,
    Option.none_or, if_pos opened, Option.map_some]

/-- Every emitted schema is that of an operation or of a component, without what
the sweep takes out. -/
theorem source_of_emits (distinct : (Json.object base).keysDistinct = true)
    (apart : (assembly.documented.map Documented.place).Nodup) {schema : Json}
    (emits : assembly.Emits base (render version versionText base assembly) schema) :
    ∃ source, assembly.HasSchema source ∧
      schema = Json.withoutReserved (source.render version) := by
  have ofOperation : ∀ entry ∈ assembly.documented,
      (∃ source ∈ entry.operation.inputs.schemas,
        schema = Json.withoutReserved (source.render version)) →
      ∃ source, assembly.HasSchema source ∧
        schema = Json.withoutReserved (source.render version) :=
    fun _ documented ⟨source, taken, same⟩ => ⟨source, .ofOperation documented taken, same⟩
  cases emits with
  | parameter documented own free shown listed described =>
    rw [shown_eq distinct apart documented free shown] at listed
    exact ofOperation _ documented (Operation.exists_of_shown_parameter own listed described)
  | body documented own free shown =>
    rw [Json.at?_append] at shown
    obtain ⟨operation, place, inside⟩ := Option.bind_eq_some_iff.mp shown
    rw [shown_eq distinct apart documented free place] at inside
    exact ofOperation _ documented (Operation.exists_of_shown_body own inside)
  | @component name _ stored free shown =>
    obtain ⟨schemas, whole, values⟩ := at?_schemas version versionText assembly
      (Json.keysDistinct_object.mp distinct).1
    rw [show ["components", "schemas", name] = ["components", "schemas"] ++ [name] from rfl,
      Json.at?_append, whole, Option.bind_some, ← Json.withoutReserved_object] at shown
    obtain ⟨original, reached, rfl⟩ := Json.at?_of_withoutReserved shown
    obtain ⟨object, held⟩ := Store.mem_names_iff.mp stored
    rw [Json.at?, Json.field?_object, values, free, held] at reached
    cases reached
    exact ⟨.inline object, .ofComponent held, by rw [Schema.render_inline]⟩

/-- The schema of a body is emitted when the operation is shown. -/
theorem emits_body (distinct : (Json.object base).keysDistinct = true)
    (apart : (assembly.documented.map Documented.place).Nodup) {entry : Documented}
    (documented : entry ∈ assembly.documented)
    (free : (Json.object base).at? ["paths", entry.path, entry.method.key] = none)
    (opened : isOpen (Json.entriesOf (base.get? "paths")) entry.path = true)
    (ordinary : isReserved entry.path = false) {body : RequestBody}
    (given : entry.operation.inputs.body = some body) {contentType : String}
    (listed : contentType ∈ body.contentTypes) (plain : isReserved contentType = false) :
    assembly.Emits base (render version versionText base assembly)
      (Json.withoutReserved (body.schema.render version)) := by
  have keys : ∀ key ∈ ["requestBody", "content", contentType, "schema"],
      isReserved key = false := by
    simp only [List.forall_mem_cons, plain]
    decide
  have shown : (render version versionText base assembly).at?
      (["paths", entry.path, entry.method.key] ++
        ["requestBody", "content", contentType, "schema"]) =
      some (Json.withoutReserved (body.schema.render version)) := by
    rw [Json.at?_append, shows distinct apart documented free opened ordinary, Option.bind_some,
      Json.at?_withoutReserved _ keys, Operation.at?_body given, if_pos listed, Option.map_some]
  exact .body documented (given ▸ Option.some_ne_none body) free shown

/-- No reserved name stands among those of the schemas. -/
theorem not_mem_schemaNames (distinct : base.names.Nodup) {name : String}
    (reserved : isReserved name = true) :
    name ∉ (render version versionText base assembly).schemaNames := by
  obtain ⟨schemas, whole, -⟩ := at?_schemas version versionText assembly distinct
  rw [Json.schemaNames, whole, Json.entriesOf, Json.names_withoutReservedEntries]
  simp [reserved]

/-- A component of the store is shown under its name unless this is reserved. -/
theorem mem_schemaNames_iff (distinct : base.names.Nodup) {name : String}
    (stored : name ∈ assembly.store.names) :
    name ∈ (render version versionText base assembly).schemaNames ↔ isReserved name = false := by
  constructor
  · intro shown
    by_contra reserved
    exact not_mem_schemaNames distinct (Bool.not_eq_false _ ▸ reserved) shown
  · intro ordinary
    obtain ⟨schemas, whole, values⟩ := at?_schemas version versionText assembly distinct
    obtain ⟨object, held⟩ := Store.mem_names_iff.mp stored
    have known : name ∈ schemas.names := by
      rw [Entries.mem_names_iff, values, held]
      cases (Json.object base).at? ["components", "schemas", name] <;> exact ⟨_, rfl⟩
    rw [Json.schemaNames, whole, Json.entriesOf, Json.names_withoutReservedEntries,
      List.mem_filter]
    exact ⟨known, by rw [ordinary, Bool.not_false]⟩

end Document

namespace Generator

theorem get?_of_get?_baseRest {base : Entries Json} (distinct : base.names.Nodup) {name : String}
    {value : Json} (found : (baseRest base).get? name = some value) :
    base.get? name = some value :=
  Entries.get?_of_mem distinct (Entries.mem_of_mem_swapErase (Entries.mem_of_mem_swapErase
    (Entries.mem_of_mem_swapErase (Entries.mem_of_get?_eq_some found))))

/-- What the base has nowhere it has nowhere after taking out what is read from it. -/
theorem at?_baseRest_eq_none {base : Entries Json} (distinct : base.names.Nodup) {name : String}
    {rest : List String} (free : (Json.object base).at? (name :: rest) = none) :
    (Json.object (baseRest base)).at? (name :: rest) = none := by
  rw [Json.at?, Json.field?_object] at free ⊢
  cases found : (baseRest base).get? name with
  | none => rfl
  | some value => rwa [get?_of_get?_baseRest distinct found] at free

/-- A route that posts one field emits a reference to the component of its action. -/
theorem emits_posting (action : String) {rule : Rule} {fragment : Fragment}
    (converted : MapperTable.builtin.convertFields [("name", rule)] = .ok [("name", fragment)])
    (url : String) :
    ∃ assembly, (unused {} []).assemble [.posting action rule url] = .ok (assembly, none) ∧
      ((unused {} []).generate "3.0" [.posting action rule url]).1 =
        .ok (Document.render .v30 "3.0" [] assembly) ∧
      assembly.Emits [] (Document.render .v30 "3.0" [] assembly)
        (.object [("$ref", .text (referenceMark ++ action))]) := by
  let posted : Documented :=
    { path := Path.normalize "/x", method := .post, operation := .posting action rule url fragment }
  have started : (unused {} []).beginning = .ok {} := rfl
  have free : (Progress.start {}).assembly.find? (Claim.posting action rule url).context.fullPath
      (Claim.posting action rule url).context.method = none := rfl
  have advanced := Claim.advance_of_free free (OperationContext.build_posting action converted url)
  obtain ⟨reached, through, documented⟩ : ∃ reached,
      Claim.run ((unused {} []).claims [.posting action rule url]) (.start {}) = (reached, none) ∧
        reached.assembly.documented = [posted] := by
    have claims : (unused {} []).claims [.posting action rule url] =
        [.posting action rule url] := claims_posting [(action, rule, url)]
    exact ⟨_, claims ▸ Claim.run_cons_of_advance advanced [], rfl⟩
  have given : posted.operation.inputs = OperationContext.postingInputs action fragment := by
    change (Operation.posting action rule url fragment).inputs = _
    rw [Operation.posting, OperationContext.inputs_operation]
  refine ⟨reached.assembly, ?_, generate_fst (by decide) started through, ?_⟩
  · rw [assemble_eq_run, started, Except.map, through]
  · have listed : posted ∈ reached.assembly.documented :=
      documented ▸ List.mem_singleton_self posted
    have apart : (reached.assembly.documented.map Documented.place).Nodup :=
      documented ▸ List.nodup_singleton _
    have emits : reached.assembly.Emits [] (Document.render .v30 "3.0" [] reached.assembly)
        (Json.withoutReserved ((Schema.ref action).render .v30)) :=
      Document.emits_body rfl apart listed rfl rfl
        (by decide : isReserved (Path.normalize "/x") = false) (congrArg Inputs.body given)
        (List.mem_singleton_self "application/json") (by decide)
    rw [Schema.render_ref] at emits
    exact emits

/-- Every emitted reference of a document names a component, and leads to a
schema of the document exactly when this name is not reserved.  This holds of every
generator whose store has no dangling references, as it never has any in use
(`performAll_closed`), and whose table has no function of a caller that writes references
of its own. -/
theorem emitted_references_lead_to_schemas_iff {generator : Generator}
    (callers : generator.table.SeparatesNames) (closed : generator.store.Closed)
    (distinct : (Json.object generator.base).keysDistinct = true)
    {versionText : String} {routes : List Route} {document : Json}
    (succeeded : (generator.generate versionText routes).1 = .ok document) :
    ∃ version assembly,
      Version.ofText? versionText = some version ∧
      generator.assemble routes = .ok (assembly, none) ∧
      document = Document.render version versionText (baseRest generator.base) assembly ∧
      ∀ schema, assembly.Emits generator.base document schema → ∀ target, schema.RefersTo target →
        ∃ name, target = referenceMark ++ name ∧
          (name ∈ document.schemaNames ↔ isReserved name = false) := by
  obtain ⟨version, begun, reached, supported, started, ran, rfl, -⟩ := generate_eq_ok succeeded
  obtain ⟨none, -, -⟩ := beginning_eq_ok started
  have sound := run_sound_of_closed callers closed routes started
  have apart := Claim.run_apart (generator.claims routes) none
  have assembled : generator.assemble routes = .ok (reached.assembly, Option.none) := by
    simp only [assemble_eq_run, started, Except.map, ran]
  rw [ran] at sound apart
  refine ⟨version, reached.assembly, supported, assembled, rfl, ?_⟩
  intro schema emits target refers
  have names := (Json.keysDistinct_object.mp distinct).1
  have rest : (Json.object (baseRest generator.base)).keysDistinct = true :=
    Json.keysDistinct_object.mpr (keysDistinct_baseRest distinct)
  -- The document is laid over what is left of the base without its version, tags and servers.
  obtain ⟨source, origin, rfl⟩ := Document.source_of_emits rest apart (emits.of_free fun free =>
    at?_baseRest_eq_none names free)
  obtain ⟨name, same, mentioned⟩ := Schema.mentions_of_refersTo refers
  have stored : name ∈ reached.assembly.store.names := by
    cases origin with
    | ofOperation documented taken =>
      exact sound.referenced _ documented name ⟨source, taken, mentioned⟩
    | ofComponent held =>
      exact (sound.closed.refersTo ⟨_, held, Schema.mentions_inline.mp mentioned⟩).1
  exact ⟨name, same, Document.mem_schemaNames_iff (keysDistinct_baseRest distinct).1 stored⟩

theorem emitted_references_lead_to_schemas_iff_posting :
    ∃ (document : Json) (assembly : Assembly) (schema : Json),
      ((unused {} []).generate "3.0" [.posting "a" .text "s"]).1 = .ok document ∧
        assembly.Emits [] document schema ∧ schema.RefersTo (referenceMark ++ "a") ∧
        "a" ∈ document.schemaNames := by
  obtain ⟨assembly, assembled, succeeded, emits⟩ :=
    emits_posting "a" (MapperTable.convertFields_text "name") "s"
  obtain ⟨version, same, -, again, -, leads⟩ :=
    @emitted_references_lead_to_schemas_iff (unused {} []) MapperTable.separatesNames_builtin
      Store.closed_empty (by decide) _ _ _ succeeded
  cases assembled.symm.trans again
  obtain ⟨name, target, listed⟩ := leads _ emits _ (.here rfl)
  cases String.append_right_inj _ |>.mp target
  exact ⟨_, assembly, _, succeeded, emits, .here rfl, listed.mpr (by decide)⟩

/-- An action that begins with the reserved mark: its component is swept out,
and the reference to it leads nowhere. -/
theorem reference_to_reserved_component_dangles :
    ∃ (document : Json) (assembly : Assembly) (schema : Json) (target : String),
      ((unused {} []).generate "3.0" [.posting "$$a" .text "s"]).1 = .ok document ∧
        (unused {} []).assemble [.posting "$$a" .text "s"] = .ok (assembly, none) ∧
        assembly.Emits [] document schema ∧ schema.RefersTo target ∧
        ¬∃ name, target = referenceMark ++ name ∧ name ∈ document.schemaNames := by
  obtain ⟨assembly, assembled, succeeded, emits⟩ :=
    emits_posting "$$a" (MapperTable.convertFields_text "name") "s"
  refine ⟨_, assembly, _, _, succeeded, assembled, emits, .here rfl, ?_⟩
  rintro ⟨name, target, shown⟩
  cases String.append_right_inj _ |>.mp target
  have empty : (Entries.names ([] : Entries Json)).Nodup := List.nodup_nil
  exact Document.not_mem_schemaNames empty (by decide) shown

end Generator
end RouteDocs
