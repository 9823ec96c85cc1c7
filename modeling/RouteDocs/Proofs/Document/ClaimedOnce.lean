import RouteDocs.Proofs.Document.Account
import RouteDocs.Proofs.Document.Fields
import RouteDocs.Proofs.Sorting

namespace RouteDocs

/-!
# Routes in any order

When no two documented routes claim the same method at the same path, no claim
finds an operation before it.  Every operation is then built from its own
claim alone, in a store of its own, and the run documents all of them or fails
at one that cannot be built, whatever the order.

The order of the routes still decides which of two tags or servers of one name
is kept, and in which order servers are listed.  Their names do not depend on
it, and neither do the paths: these are sorted in the end, and the operations
of a path stand in the order of methods.
-/

/-! ## Places -/

/-- What a claim is for: a method at a path. -/
def OperationContext.place (context : OperationContext) : String × Method :=
  (context.fullPath, context.method)

def Documented.place (entry : Documented) : String × Method :=
  (entry.path, entry.method)

namespace Route

def places (route : Route) : List (String × Method) :=
  route.effectiveMethods.map fun method => (route.fullPath, method)

/-- No method is claimed twice at a path by documented routes. -/
def ClaimedOnce (routes : List Route) : Prop :=
  ((routes.filter isDocumented).flatMap places).Nodup

instance (routes : List Route) : Decidable (ClaimedOnce routes) :=
  inferInstanceAs (Decidable (List.Nodup _))

end Route

namespace Workshop

/-- What the claims of routes are built from, in order. -/
theorem map_context_claims (workshop : Workshop) (routes : List Route) :
    (workshop.claims routes).map Claim.context =
      (routes.filter Route.isDocumented).flatMap fun route =>
        route.effectiveMethods.map (workshop.context route) := by
  simp only [claims, List.map_flatMap, map_context_claimsOf]

theorem map_place_claims (workshop : Workshop) (routes : List Route) :
    ((workshop.claims routes).map Claim.context).map OperationContext.place =
      (routes.filter Route.isDocumented).flatMap Route.places := by
  rw [map_context_claims, List.map_flatMap]
  simp only [List.map_map]
  rfl

end Workshop

namespace Generator

variable (generator : Generator) {routes others : List Route}

theorem contexts_perm (same : routes.Perm others) :
    ((generator.claims routes).map Claim.context).Perm
      ((generator.claims others).map Claim.context) := by
  have ordered : (Route.inPathOrder routes).Perm (Route.inPathOrder others) :=
    (List.mergeSort_perm routes _).trans (same.trans (List.mergeSort_perm others _).symm)
  unfold claims
  rw [Workshop.map_context_claims, Workshop.map_context_claims]
  exact (ordered.filter Route.isDocumented).flatMap_right _

theorem nodup_places_claims (once : Route.ClaimedOnce routes) :
    (((generator.claims routes).map Claim.context).map OperationContext.place).Nodup := by
  unfold claims
  rw [Workshop.map_place_claims]
  have ordered := (List.mergeSort_perm routes fun first second =>
    decide (first.fullPath ≤ second.fullPath)).filter Route.isDocumented
  exact (ordered.flatMap_right Route.places).nodup_iff.mpr once

end Generator

/-! ## A run over claims of different places -/

namespace OperationContext

/-- The operation that can be built, with what it is built from. -/
def built? (context : OperationContext) : Option (OperationContext × Operation) :=
  match context.build with
  | .ok (operation, _) => some (context, operation)
  | .error _ => none

end OperationContext

/-- The entry of the document for an operation. -/
def Documented.of (entry : OperationContext × Operation) : Documented where
  path := entry.1.fullPath
  method := entry.1.method
  operation := entry.2

/-- The tags that an operation brings. -/
def Tag.broughtBy (entry : OperationContext × Operation) : List Tag :=
  entry.1.docs.tagDefinitions ++ entry.2.tags.map Tag.bare

def Server.broughtBy (entry : OperationContext × Operation) : List Server :=
  entry.1.route.server.toList

/-- An assembly shows operations when these are what it has more than an
earlier one, apart from components. -/
structure Assembly.Shows (reached before : Assembly)
    (accepted : List (OperationContext × Operation)) : Prop where
  documented : reached.documented = before.documented ++ accepted.map Documented.of
  tags : reached.tags = (accepted.flatMap Tag.broughtBy).foldl Tag.register before.tags
  servers : reached.servers =
    (accepted.flatMap Server.broughtBy).foldl Server.register before.servers

namespace Assembly

theorem Shows.refl (assembly : Assembly) : assembly.Shows assembly [] where
  documented := (List.append_nil _).symm
  tags := rfl
  servers := rfl

theorem Shows.accept {reached before : Assembly} {context : OperationContext}
    {operation : Operation} {components : Store}
    {accepted : List (OperationContext × Operation)}
    (shown : reached.Shows ((before.absorb components).accept context operation) accepted) :
    reached.Shows before ((context, operation) :: accepted) where
  documented := by
    rw [shown.documented]
    simp [Assembly.accept, absorb, Documented.of]
  tags := by
    rw [shown.tags, List.flatMap_cons, List.foldl_append]
    rfl
  servers := by
    rw [shown.servers, List.flatMap_cons, List.foldl_append]
    rfl

end Assembly

namespace Claim

/-- A run over claims of different places that are all free documents them
all, each as it is built by itself. -/
theorem run_shows {claims : List Claim} {before reached : Progress}
    (apart : ((claims.map Claim.context).map OperationContext.place).Nodup)
    (free : ∀ claim ∈ claims,
      before.assembly.find? claim.context.fullPath claim.context.method = none)
    (through : run claims before = (reached, none)) :
    (∀ claim ∈ claims, ∃ operation built, claim.context.build = .ok (operation, built)) ∧
      reached.assembly.Shows before.assembly
        ((claims.map Claim.context).filterMap OperationContext.built?) := by
  induction claims generalizing before with
  | nil =>
    cases through
    exact ⟨fun _ member => absurd member List.not_mem_nil, .refl _⟩
  | cons claim rest inductionHypothesis =>
    rw [List.map_cons, List.map_cons, List.nodup_cons] at apart
    have here := free claim List.mem_cons_self
    cases built : claim.context.build with
    | error fault =>
      have stopped : claim.advance before = .error fault := by
        simp only [advance, OperationContext.claim, here, built, Except.map]
      simp only [run, stopped] at through
      cases through
    | ok made =>
      obtain ⟨operation, store⟩ := made
      rw [run_cons_of_advance (advance_of_free here built)] at through
      have stillFree : ∀ other ∈ rest,
          ((before.assembly.absorb ((claim.contributed before).unrepeated store)).accept
            claim.context operation).find? other.context.fullPath other.context.method = none := by
        intro other member
        have elsewhere : ¬(claim.context.fullPath = other.context.fullPath ∧
            claim.context.method = other.context.method) := by
          rintro ⟨samePath, sameMethod⟩
          have place : claim.context.place = other.context.place := Prod.ext samePath sameMethod
          apply apart.1
          rw [place]
          exact List.mem_map_of_mem (List.mem_map_of_mem member)
        rw [Assembly.find?_accept_elsewhere _ _ _ elsewhere]
        exact free other (List.mem_cons_of_mem claim member)
      obtain ⟨builds, shown⟩ := inductionHypothesis apart.2 stillFree through
      have first : claim.context.built? = some (claim.context, operation) := by
        rw [OperationContext.built?, built]
      refine ⟨?_, ?_⟩
      · intro other member
        rcases List.mem_cons.mp member with rfl | later
        · exact ⟨operation, store, built⟩
        · exact builds other later
      · rw [List.map_cons, List.filterMap_cons, first]
        exact shown.accept

/-- If a run gets through such claims, so does every run over the same claims
in another order. -/
theorem run_of_perm {claims others : List Claim} {before reached : Progress}
    (apart : ((claims.map Claim.context).map OperationContext.place).Nodup)
    (free : ∀ path method, before.assembly.find? path method = none)
    (same : (claims.map Claim.context).Perm (others.map Claim.context))
    (through : run claims before = (reached, none)) :
    ∃ further, run others before = (further, none) := by
  obtain ⟨builds, -⟩ := run_shows apart (fun _ _ => free _ _) through
  apply run_of_builds
  intro other member
  obtain ⟨claim, listed, equal⟩ :=
    List.mem_map.mp (same.mem_iff.mpr (List.mem_map_of_mem member))
  obtain ⟨operation, built, succeeded⟩ := builds claim listed
  exact ⟨operation, built, equal ▸ succeeded⟩

end Claim

/-! ## The names of tags and servers -/

/-- Add a name to a list that has each name only once. -/
def addName (names : List String) (name : String) : List String :=
  if name ∈ names then names else names ++ [name]

theorem mem_addName {names : List String} {name other : String} :
    other ∈ addName names name ↔ other ∈ names ∨ other = name := by
  unfold addName
  split
  · next present =>
    constructor
    · exact Or.inl
    · rintro (known | rfl)
      · exact known
      · exact present
  · rw [List.mem_append, List.mem_singleton]

theorem mem_foldl_addName {more names : List String} {name : String} :
    name ∈ more.foldl addName names ↔ name ∈ names ∨ name ∈ more := by
  induction more generalizing names with
  | nil => simp only [List.foldl_nil, List.not_mem_nil, or_false]
  | cons first rest inductionHypothesis =>
    rw [List.foldl_cons, inductionHypothesis, mem_addName, List.mem_cons, or_assoc]

theorem nodup_foldl_addName {names : List String} (distinct : names.Nodup) (more : List String) :
    (more.foldl addName names).Nodup := by
  induction more generalizing names with
  | nil => exact distinct
  | cons first rest inductionHypothesis =>
    apply inductionHypothesis
    unfold addName
    split
    · exact distinct
    · next absent => exact List.nodup_append_comm.mp (List.nodup_cons.mpr ⟨absent, distinct⟩)

theorem addName_perm {names others : List String} (same : names.Perm others) (name : String) :
    (addName names name).Perm (addName others name) := by
  simp only [addName, same.mem_iff]
  split
  · exact same
  · exact same.append_right [name]

theorem addName_swap (names : List String) (first second : String) :
    (addName (addName names first) second).Perm (addName (addName names second) first) := by
  by_cases equal : first = second
  · rw [equal]
  · have exchanged : (names ++ [first, second]).Perm (names ++ [second, first]) :=
      (List.Perm.swap second first []).append_left names
    by_cases firstKnown : first ∈ names <;> by_cases secondKnown : second ∈ names <;>
      simp [addName, firstKnown, secondKnown, equal, Ne.symm equal, exchanged]

theorem foldl_addName_perm_left {names others : List String} (same : names.Perm others)
    (more : List String) : (more.foldl addName names).Perm (more.foldl addName others) := by
  induction more generalizing names others with
  | nil => exact same
  | cons name rest inductionHypothesis => exact inductionHypothesis (addName_perm same name)

/-- The same names in another order add up to the same names. -/
theorem foldl_addName_perm {more others : List String} (added : more.Perm others)
    (names : List String) : (more.foldl addName names).Perm (others.foldl addName names) := by
  induction added generalizing names with
  | nil => exact .refl names
  | cons name _ inductionHypothesis => exact inductionHypothesis (addName names name)
  | swap first second rest => exact foldl_addName_perm_left (addName_swap names second first) rest
  | trans _ _ firstHypothesis secondHypothesis =>
    exact (firstHypothesis names).trans (secondHypothesis names)

theorem Tag.names_register (tags : List Tag) (tag : Tag) :
    (register tags tag).map name = addName (tags.map name) tag.name := by
  induction tags with
  | nil => rfl
  | cons first rest inductionHypothesis =>
    by_cases same : first.name = tag.name
    · rw [register, if_pos same]
      split <;> simp [addName, same]
    · rw [register, if_neg same, List.map_cons, List.map_cons, inductionHypothesis]
      simp only [addName, List.mem_cons, Ne.symm same, false_or]
      split <;> rfl

theorem Tag.names_registerAll (tags more : List Tag) :
    (more.foldl register tags).map name = (more.map name).foldl addName (tags.map name) := by
  rw [List.foldl_map]
  exact (List.foldl_hom (List.map name) fun tags tag => (names_register tags tag).symm).symm

theorem Server.urls_register (servers : List Server) (server : Server) :
    (register servers server).map url = addName (servers.map url) server.url := by
  have known : (servers.any fun known => known.url == server.url) = true ↔
      server.url ∈ servers.map url := by
    simp only [List.any_eq_true, beq_iff_eq, List.mem_map]
  unfold register addName
  by_cases present : server.url ∈ servers.map url
  · rw [if_pos (known.mpr present), if_pos present]
  · rw [if_neg fun found => present (known.mp found), if_neg present, List.map_append]
    rfl

theorem Server.urls_registerAll (servers more : List Server) :
    (more.foldl register servers).map url = (more.map url).foldl addName (servers.map url) := by
  rw [List.foldl_map]
  exact (List.foldl_hom (List.map url) fun servers server =>
    (urls_register servers server).symm).symm

/-- Sorted tags with the same names have them in the same order. -/
theorem Document.names_sortTags_of_perm {tags others : List Tag}
    (same : (tags.map Tag.name).Perm (others.map Tag.name)) :
    (sortTags tags).map Tag.name = (sortTags others).map Tag.name := by
  have sorted : ∀ given : List Tag, ((sortTags given).map Tag.name).Pairwise (· ≤ ·) :=
    fun given => List.pairwise_map.mpr (Sorting.ascending_mergeSort Tag.name given)
  have kept : ∀ given : List Tag, ((sortTags given).map Tag.name).Perm (given.map Tag.name) :=
    fun given => (List.mergeSort_perm given (Sorting.byKey Tag.name)).map Tag.name
  have order := (kept tags).trans (same.trans (kept others).symm)
  exact List.Perm.eq_of_pairwise (fun _ _ _ _ below above => Std.le_antisymm below above)
    (sorted tags) (sorted others) order

/-! ## The paths of the document -/

theorem Method.rank_injective : Function.Injective rank := by
  intro first second same
  cases first <;> cases second <;> first | rfl | exact absurd same (by decide)

namespace Document

variable (version : Version)

/-- An operation is laid into its own path and leaves the others as they are. -/
theorem filter_layOperation (paths : Entries Json) (entry : Documented) (path : String) :
    (layOperation version paths entry).filter (fun laid => laid.1 == path) =
      if entry.path == path then
        layOperation version (paths.filter fun laid => laid.1 == path) entry
      else paths.filter fun laid => laid.1 == path := by
  by_cases here : entry.path = path
  · subst here
    rw [if_pos BEq.rfl]
    unfold layOperation
    rw [Entries.get?_filter_name]
    split
    · exact Entries.filter_put_self _ _ _
    · exact Entries.filter_put_self _ _ _
    · rfl
  · rw [if_neg (fun same => here (beq_iff_eq.mp same))]
    unfold layOperation
    split
    · exact Entries.filter_put_of_ne _ here _
    · exact Entries.filter_put_of_ne _ here _
    · rfl

/-- What is laid into one path depends on the operations of this path alone. -/
theorem filter_laid (documented : List Documented) (paths : Entries Json) (path : String) :
    (documented.foldl (layOperation version) paths).filter (fun laid => laid.1 == path) =
      (documented.filter fun entry => entry.path == path).foldl (layOperation version)
        (paths.filter fun laid => laid.1 == path) := by
  induction documented generalizing paths with
  | nil => rfl
  | cons entry rest inductionHypothesis =>
    rw [List.foldl_cons, inductionHypothesis, filter_layOperation, List.filter_cons]
    split <;> rfl

/-- Operations of different places give the same paths in every order. -/
theorem renderPaths_eq_of_perm (base : Option Json) {documented others : List Documented}
    (apart : (documented.map Documented.place).Nodup) (same : documented.Perm others) :
    renderPaths version base documented = renderPaths version base others := by
  let rank : Documented → Nat := fun entry => entry.method.rank
  have ranked : ∀ path, (documented.mergeSort (Sorting.byKey rank)).filter
      (fun entry => entry.path == path) =
        (others.mergeSort (Sorting.byKey rank)).filter fun entry => entry.path == path := by
    intro path
    have kept := (List.mergeSort_perm documented (Sorting.byKey rank)).filter
      fun entry => entry.path == path
    have order := ((List.mergeSort_perm documented (Sorting.byKey rank)).trans (same.trans
      (List.mergeSort_perm others (Sorting.byKey rank)).symm)).filter
        fun entry => entry.path == path
    have distinct : ((documented.filter fun entry => entry.path == path).map rank).Nodup := by
      apply List.Nodup.map_on
      · intro first firstMember second secondMember equal
        have firstHere := List.mem_filter.mp firstMember
        have secondHere := List.mem_filter.mp secondMember
        apply List.inj_on_of_nodup_map apart firstHere.1 secondHere.1
        apply Prod.ext
        · exact (beq_iff_eq.mp firstHere.2).trans (beq_iff_eq.mp secondHere.2).symm
        · exact Method.rank_injective equal
      · exact (List.Nodup.of_map _ apart).filter _
    exact Sorting.Ascending.eq_of_perm ((Sorting.ascending_mergeSort rank documented).filter _)
      ((Sorting.ascending_mergeSort rank others).filter _)
      ((kept.map rank).nodup_iff.mpr distinct) order
  have sorted : Entries.sortedByName
      ((documented.mergeSort (Sorting.byKey rank)).foldl (layOperation version)
        (Json.entriesOf base)) =
      Entries.sortedByName ((others.mergeSort (Sorting.byKey rank)).foldl (layOperation version)
        (Json.entriesOf base)) := by
    apply Sorting.mergeSort_eq_of_filter_eq
    intro path
    rw [filter_laid, filter_laid, ranked]
  exact congrArg Json.object sorted

/-! ## What two documents have in common -/

/-- One key of every item of a list in the document. -/
def listed (document : Json) (list key : String) : List (Option Json) :=
  (Json.itemsOf (document.field? list)).map fun item => item.field? key

def tagNames (document : Json) : List (Option Json) :=
  listed document "tags" "name"

def serverUrls (document : Json) : List (Option Json) :=
  listed document "servers" "url"

/-- Two documents have the same paths, the same names of tags in the same
order, and the same addresses of servers. -/
structure Alike (document other : Json) : Prop where
  paths : document.field? "paths" = other.field? "paths"
  tags : tagNames document = tagNames other
  servers : ∀ url, url ∈ serverUrls document ↔ url ∈ serverUrls other

variable {version}

/-- One key of the items of a generated list, where every item has a text:
the list of the base stands in its place if there is one. -/
theorem listed_render {α : Type} {toJson : α → Json} {text : α → String} {list key : String}
    {values : Assembly → List α} (ordinaryList : isReserved list = false)
    (ordinary : isReserved key = false) (other : list ≠ "openapi")
    (held : ∀ value, (toJson value).field? key = some (.text (text value)))
    {base : Entries Json}
    (generated : ∀ assembly, (generatedParts version base assembly).get? list =
      some (.list ((values assembly).map toJson))) (versionText : String) (assembly : Assembly) :
    listed (render version versionText base assembly) list key =
      match (own base).get? list with
      | some given => (Json.itemsOf (some given.withoutReserved)).map fun item => item.field? key
      | none => ((values assembly).map text).map (some ∘ Json.text) := by
  have shown : ∀ value, (toJson value).withoutReserved.field? key = some (.text (text value)) := by
    intro value
    rw [Json.field?_withoutReserved _ ordinary, held, Option.map_some, Json.withoutReserved]
  rw [listed, field?_render version versionText base assembly ordinaryList other, generated]
  cases (own base).get? list with
  | some given => rfl
  | none =>
    simp only [Option.none_or, Option.map_some, Json.withoutReserved_list, Json.itemsOf,
      List.map_map]
    exact List.map_congr_left fun value _ => shown value

theorem tagNames_render (versionText : String) (base : Entries Json) {first second : Assembly}
    (same : (sortTags first.tags).map Tag.name = (sortTags second.tags).map Tag.name) :
    tagNames (render version versionText base first) =
      tagNames (render version versionText base second) := by
  have names := @listed_render version _ Tag.toJson Tag.name "tags" "name"
    (fun assembly => sortTags assembly.tags) (by decide) (by decide) (by decide) (fun _ => rfl)
    base (fun _ => rfl) versionText
  rw [tagNames, tagNames, names first, names second, same]

theorem serverUrls_render (versionText : String) (base : Entries Json) {first second : Assembly}
    (same : (first.servers.map Server.url).Perm (second.servers.map Server.url)) :
    (serverUrls (render version versionText base first)).Perm
      (serverUrls (render version versionText base second)) := by
  have urls := @listed_render version _ Server.toJson Server.url "servers" "url"
    Assembly.servers (by decide) (by decide) (by decide) (fun _ => rfl) base (fun _ => rfl)
    versionText
  rw [serverUrls, serverUrls, urls first, urls second]
  split
  · exact .refl _
  · exact same.map _

/-- Documents of assemblies that show the same operations in any order are alike. -/
theorem render_alike (versionText : String) (base : Entries Json)
    {first second begun : Assembly} {accepted others : List (OperationContext × Operation)}
    (shown : first.Shows begun accepted) (shownOthers : second.Shows begun others)
    (same : accepted.Perm others)
    (apart : (first.documented.map Documented.place).Nodup) :
    Alike (render version versionText base first) (render version versionText base second) where
  paths := by
    have order : first.documented.Perm second.documented := by
      rw [shown.documented, shownOthers.documented]
      exact (same.map Documented.of).append_left _
    have generated : ∀ assembly : Assembly, (generatedParts version base assembly).get? "paths" =
        some (renderPaths version (base.get? "paths") assembly.documented) := fun _ => rfl
    rw [field?_render version versionText base first (by decide) (by decide),
      field?_render version versionText base second (by decide) (by decide), generated, generated,
      renderPaths_eq_of_perm version _ apart order]
  tags := by
    apply tagNames_render
    apply names_sortTags_of_perm
    rw [shown.tags, shownOthers.tags, Tag.names_registerAll, Tag.names_registerAll]
    exact foldl_addName_perm ((same.flatMap_right Tag.broughtBy).map Tag.name) _
  servers := by
    have order : (first.servers.map Server.url).Perm (second.servers.map Server.url) := by
      rw [shown.servers, shownOthers.servers, Server.urls_registerAll, Server.urls_registerAll]
      exact foldl_addName_perm ((same.flatMap_right Server.broughtBy).map Server.url) _
    intro url
    exact (serverUrls_render versionText base order).mem_iff

/-- Two outcomes agree when both are faults, or both are documents that are alike. -/
def Agree (first second : Except Fault Json) : Prop :=
  match first, second with
  | .ok document, .ok other => Alike document other
  | .error _, .error _ => True
  | _, _ => False

end Document

namespace Generator

/-- What is documented of claims stands at their places. -/
theorem places_documented_sublist (contexts : List OperationContext) :
    (((contexts.filterMap OperationContext.built?).map Documented.of).map
      Documented.place).Sublist (contexts.map OperationContext.place) := by
  induction contexts with
  | nil => exact .slnil
  | cons context rest inductionHypothesis =>
    rw [List.filterMap_cons, List.map_cons]
    unfold OperationContext.built?
    cases context.build with
    | error fault => exact inductionHypothesis.cons context.place
    | ok made => exact inductionHypothesis.cons_cons context.place

/-- When no method is claimed twice at a path, the order of routes shows
neither in the paths nor in the names of tags and servers. -/
theorem generate_alike_of_perm (generator : Generator) (versionText : String)
    {routes others : List Route} (once : Route.ClaimedOnce routes) (same : routes.Perm others) :
    Document.Agree (generator.generate versionText routes).1
      (generator.generate versionText others).1 := by
  cases supported : Version.ofText? versionText with
  | none =>
    simp only [generate, supported]
    trivial
  | some version =>
    cases started : generator.beginning with
    | error fault =>
      simp only [generate, supported, generateFor, assemble_eq_run, started, Except.map]
      trivial
    | ok begun =>
      obtain ⟨none, -, -⟩ := beginning_eq_ok started
      have free : ∀ path method, (Progress.start begun).assembly.find? path method = .none := by
        intro path method
        simp only [Progress.start, Assembly.find?, none, List.find?_nil, Option.map_none]
      have contexts := generator.contexts_perm same
      have apart := generator.nodup_places_claims once
      have apartOthers := (contexts.map OperationContext.place).nodup_iff.mp apart
      rcases ran : Claim.run (generator.claims routes) (.start begun) with ⟨reached, _ | fault⟩
      · obtain ⟨further, ranOthers⟩ := Claim.run_of_perm apart free contexts ran
        obtain ⟨-, shown⟩ := Claim.run_shows apart (fun _ _ => free _ _) ran
        obtain ⟨-, shownOthers⟩ := Claim.run_shows apartOthers (fun _ _ => free _ _) ranOthers
        have places : (reached.assembly.documented.map Documented.place).Nodup := by
          rw [shown.documented, Progress.start, none, List.nil_append]
          exact (places_documented_sublist _).nodup apart
        rw [generate_fst supported started ran, generate_fst supported started ranOthers]
        exact Document.render_alike versionText (baseRest generator.base) shown shownOthers
          (contexts.filterMap OperationContext.built?) places
      · rcases ranOthers : Claim.run (generator.claims others) (.start begun) with
          ⟨further, _ | reason⟩
        · obtain ⟨impossible, through⟩ :=
            Claim.run_of_perm apartOthers free contexts.symm ranOthers
          rw [ran] at through
          cases through
        · rw [generate_outcome supported started, generate_outcome supported started, ran,
            ranOthers]
          trivial

/-- Two routes of one path in either order. -/
theorem generate_alike_of_perm_passing :
    Route.ClaimedOnce [.passing .get "/a", .passing .post "/a"] ∧
      ∃ document other,
        ((unused {} []).generate "3.0" [.passing .get "/a", .passing .post "/a"]).1 =
          .ok document ∧
        ((unused {} []).generate "3.0" [.passing .post "/a", .passing .get "/a"]).1 = .ok other ∧
        Document.Alike document other := by
  have once : Route.ClaimedOnce [.passing .get "/a", .passing .post "/a"] := by decide
  have alike := generate_alike_of_perm (unused {} []) "3.0" once (List.Perm.swap _ _ [])
  have supported : Version.ofText? "3.0" = some .v30 := by decide
  have started : (unused {} []).beginning = .ok {} := rfl
  obtain ⟨document, succeeded⟩ :=
    generate_passing {} supported started [(.get, "/a"), (.post, "/a")]
  obtain ⟨other, succeededOther⟩ :=
    generate_passing {} supported started [(.post, "/a"), (.get, "/a")]
  simp only [List.map_cons, List.map_nil] at succeeded succeededOther
  rw [succeeded, succeededOther] at alike
  exact ⟨once, document, other, succeeded, succeededOther, alike⟩

end Generator
end RouteDocs
