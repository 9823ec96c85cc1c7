import RouteDocs.Proofs.Document.Registrations

namespace RouteDocs

/-!
# The tags of a document

Tags are registered one after the other: those of the base, and then those of every
accepted operation, which are the tags that its documentation defines and the bare
names that it uses.  A registered tag keeps its place.  It keeps its description as well,
once it has one, so that the list has the first description that was registered for
each name (`Tag.firstDescription_registerAll`), whatever comes between.
-/

namespace Tag

/-- The first description among the tags of a name. -/
def firstDescription (tags : List Tag) (name : String) : Option String :=
  tags.findSome? fun tag => if tag.name = name then tag.description else none

theorem firstDescription_append (tags more : List Tag) (name : String) :
    firstDescription (tags ++ more) name =
      (firstDescription tags name).or (firstDescription more name) :=
  List.findSome?_append

theorem firstDescription_cons (tag : Tag) (tags : List Tag) (name : String) :
    firstDescription (tag :: tags) name =
      (if tag.name = name then tag.description else none).or (firstDescription tags name) := by
  rw [firstDescription, List.findSome?_cons]
  cases (if tag.name = name then tag.description else none) <;> rfl

theorem firstDescription_of_absent {tags : List Tag} {name : String}
    (absent : name ∉ tags.map Tag.name) : firstDescription tags name = none := by
  refine List.findSome?_eq_none_iff.mpr fun tag member => if_neg fun same => absent ?_
  rw [← same]
  exact List.mem_map_of_mem member

/-- With one tag for each name, the description of a tag is the one that counts. -/
theorem firstDescription_of_mem {tags : List Tag} (distinct : (tags.map Tag.name).Nodup) {tag : Tag}
    (member : tag ∈ tags) : firstDescription tags tag.name = tag.description := by
  induction tags with
  | nil => cases member
  | cons first rest inductionHypothesis =>
    rcases List.nodup_cons.mp distinct with ⟨absent, others⟩
    rw [firstDescription_cons]
    rcases List.mem_cons.mp member with rfl | later
    · rw [if_pos rfl, firstDescription_of_absent absent, Option.or_none]
    · have different : first.name ≠ tag.name := by
        intro same
        exact absent (same ▸ List.mem_map_of_mem later)
      rw [if_neg different, Option.none_or, inductionHypothesis others later]

/-- A tag of a known name leaves one tag of this name in its place. -/
theorem exists_register_cons {first tag : Tag} (same : first.name = tag.name) (rest : List Tag) :
    ∃ kept, register (first :: rest) tag = kept :: rest ∧ kept.name = tag.name ∧
      kept.description = first.description.or tag.description := by
  rw [register, if_pos same]
  split
  · next described =>
    have bare := Option.isNone_iff_eq_none.mp (Bool.and_eq_true_iff.mp described).1
    exact ⟨tag, rfl, rfl, by rw [bare, Option.none_or]⟩
  · next known =>
    refine ⟨first, rfl, same, ?_⟩
    cases own : first.description with
    | some text => rfl
    | none =>
      cases new : tag.description with
      | none => rfl
      | some text => exact absurd (by rw [own, new]; rfl) known

/-- A new tag only counts where there is no description yet. -/
theorem firstDescription_register {tags : List Tag} (distinct : (tags.map Tag.name).Nodup)
    (tag : Tag) (name : String) :
    firstDescription (register tags tag) name = firstDescription (tags ++ [tag]) name := by
  have single : firstDescription [tag] name =
      if tag.name = name then tag.description else none := by
    rw [firstDescription_cons]
    exact Option.or_none
  induction tags with
  | nil => rfl
  | cons first rest inductionHypothesis =>
    rcases List.nodup_cons.mp distinct with ⟨absent, others⟩
    rw [List.cons_append, firstDescription_cons first]
    by_cases same : first.name = tag.name
    · rcases exists_register_cons same rest with ⟨kept, registered, named, description⟩
      rw [registered, firstDescription_cons, named, description, same, firstDescription_append,
        single]
      by_cases asked : tag.name = name
      · have none : firstDescription rest name = none :=
          firstDescription_of_absent (asked ▸ same ▸ absent)
        rw [if_pos asked, if_pos asked, if_pos asked, none, Option.or_none, Option.none_or]
      · rw [if_neg asked, if_neg asked, if_neg asked, Option.or_none]
    · rw [register, if_neg same, firstDescription_cons, inductionHypothesis others]

/-- Registering tags keeps the first description of each name. -/
theorem firstDescription_registerAll {tags : List Tag} (distinct : (tags.map Tag.name).Nodup)
    (more : List Tag) (name : String) :
    firstDescription (more.foldl register tags) name = firstDescription (tags ++ more) name := by
  induction more generalizing tags with
  | nil => rw [List.foldl_nil, List.append_nil]
  | cons tag rest inductionHypothesis =>
    have still : ((register tags tag).map Tag.name).Nodup := by
      rw [names_register]
      exact nodup_foldl_addName distinct [tag.name]
    rw [List.foldl_cons, inductionHypothesis still, firstDescription_append,
      firstDescription_register distinct, ← firstDescription_append, List.append_assoc,
      List.singleton_append]

theorem nodup_names_registerAll (tags : List Tag) :
    ((tags.foldl register []).map Tag.name).Nodup := by
  rw [names_registerAll]
  exact nodup_foldl_addName List.nodup_nil _

end Tag

namespace Document

/-- Sorted tags are the registered tags. -/
theorem mem_sortTags {tags : List Tag} {tag : Tag} : tag ∈ sortTags tags ↔ tag ∈ tags :=
  (List.mergeSort_perm tags (Sorting.byKey Tag.name)).mem_iff

/-- Distinct names ascend strictly once they are sorted. -/
theorem pairwise_names_sortTags {tags : List Tag} (distinct : (tags.map Tag.name).Nodup) :
    ((sortTags tags).map Tag.name).Pairwise (· < ·) := by
  have sorted : ((sortTags tags).map Tag.name).Pairwise (· ≤ ·) :=
    List.pairwise_map.mpr (Sorting.ascending_mergeSort Tag.name tags)
  have order := (List.mergeSort_perm tags (Sorting.byKey Tag.name)).map Tag.name
  have apart : ((sortTags tags).map Tag.name).Nodup := order.nodup_iff.mpr distinct
  exact (sorted.and apart).imp fun both => Std.lt_of_le_of_ne both.1 both.2

theorem field?_tags {base : Entries Json} (distinct : base.names.Nodup) (version : Version)
    (versionText : String) (assembly : Assembly) :
    (render version versionText (Generator.baseRest base) assembly).field? "tags" =
      some (.list ((sortTags assembly.tags).map Tag.toJson)) :=
  field?_list distinct (Or.inl rfl)
    (fun tag => Json.withoutReserved_described (by decide) tag.name tag.description) rfl versionText

end Document

namespace Generator

/-- The tags that a generation registers, one after the other: the given ones, and for
each accepted operation those that its documentation defines and then the bare names
that it uses. -/
def registered (generator : Generator) (given : List Tag) (routes : List Route) : List Tag :=
  given ++ (generator.accepted routes).flatMap Tag.broughtBy

/-- The tags of a document are those that were registered, beginning with the tags of the
base.  Their names ascend, every registered name is there, and no other, and each tag has
the first description that was registered for its name, if there is one.  So every name
that an accepted operation uses is there. -/
theorem tags_are_registered (generator : Generator) (distinct : generator.base.names.Nodup)
    {versionText : String} {routes : List Route} {document : Json}
    (succeeded : (generator.generate versionText routes).1 = .ok document) :
    ∃ (assembly : Assembly) (given tags : List Tag),
      generator.assemble routes = .ok (assembly, none) ∧
      List.Forall₂ Documented.Keeps assembly.documented (generator.accepted routes) ∧
      baseList Tag.read generator.base "tags" = .ok given ∧
      document.field? "tags" = some (.list (tags.map Tag.toJson)) ∧
      (tags.map Tag.name).Pairwise (· < ·) ∧
      (∀ name, name ∈ tags.map Tag.name ↔
        name ∈ (generator.registered given routes).map Tag.name) ∧
      (∀ tag ∈ tags,
        tag.description = Tag.firstDescription (generator.registered given routes) tag.name) ∧
      ∀ made ∈ generator.accepted routes, ∀ name ∈ made.2.tags, name ∈ tags.map Tag.name := by
  rcases generate_eq_ok succeeded with ⟨version, begun, reached, -, started, through, rfl, -⟩
  rcases lists_of_beginning started with ⟨given, -, read, -, begunTags, -⟩
  have registers := Claim.run_registers through (beginning_eq_ok started).1
  have assembled := assemble_of_run started through
  have registered : reached.assembly.tags =
      (generator.registered given routes).foldl Tag.register [] := by
    rw [registers.tags, begunTags, ← List.foldl_append]
    rfl
  have apart : (reached.assembly.tags.map Tag.name).Nodup := by
    rw [registered]
    exact Tag.nodup_names_registerAll _
  have order := (List.mergeSort_perm reached.assembly.tags (Sorting.byKey Tag.name)).map Tag.name
  have names : ∀ name, name ∈ (Document.sortTags reached.assembly.tags).map Tag.name ↔
      name ∈ (generator.registered given routes).map Tag.name := by
    intro name
    refine order.mem_iff.trans ?_
    rw [registered, Tag.names_registerAll, mem_foldl_addName]
    exact or_iff_right List.not_mem_nil
  refine ⟨reached.assembly, given, Document.sortTags reached.assembly.tags, assembled,
    registers.documented, read, Document.field?_tags distinct version versionText _,
    Document.pairwise_names_sortTags apart, names, fun tag member => ?_,
    fun made accepted name used => ?_⟩
  · rw [← Tag.firstDescription_of_mem apart (Document.mem_sortTags.mp member), registered]
    exact @Tag.firstDescription_registerAll [] List.nodup_nil _ tag.name
  · refine (names name).mpr (List.mem_map.mpr ⟨Tag.bare name, ?_, rfl⟩)
    refine List.mem_append_right _ (List.mem_flatMap.mpr ⟨made, accepted, ?_⟩)
    exact List.mem_append_right _ (List.mem_map_of_mem used)

/-- A route whose service defines two tags and gives its name as a third one. -/
def serviceRoute : Route where
  methods := [.get]
  path := "/a"
  action := some "list"
  service := some
    { name := "b"
      docs := { tagDefinitions := [{ name := "c" }, { name := "b", description := some "B" }] } }

/-- A base with the same name, bare, and another one. -/
def taggedBase : Entries Json :=
  [("tags", .list [.object [("name", .text "b")],
    .object [("name", .text "a"), ("description", .text "A")]])]

/-- The description from the base comes first for one name, and that of the service for
the other one, although the base has this name before. -/
theorem tags_are_registered_service :
    ∃ document, ∃ tags : List Tag,
      ((unused {} taggedBase).generate "3.0" [serviceRoute]).1 = .ok document ∧
      document.field? "tags" = some (.list (tags.map Tag.toJson)) ∧
      (tags.map Tag.name).Pairwise (· < ·) ∧
      (∀ name, name ∈ tags.map Tag.name ↔ name ∈ ["b", "a", "c", "b", "b"]) ∧
      ∀ tag ∈ tags, tag.description = Tag.firstDescription
        [{ name := "b" }, { name := "a", description := some "A" }, { name := "c" },
          { name := "b", description := some "B" }, { name := "b" }] tag.name := by
  have claims : (unused {} taggedBase).claims [serviceRoute] =
      [{ context := (unused {} taggedBase).workshop.context serviceRoute .get
         opening := true }] := by
    rw [Generator.claims, Route.inPathOrder, List.mergeSort_singleton]
    rfl
  have begins : ∃ begun, (unused {} taggedBase).beginning = .ok begun := ⟨_, rfl⟩
  have builds : ∀ claim ∈ (unused {} taggedBase).claims [serviceRoute],
      ∃ operation built, claim.context.build = .ok (operation, built) := by
    rw [claims]
    exact List.forall_mem_singleton.mpr ⟨_, _, rfl⟩
  rcases begins with ⟨begun, started⟩
  rcases Claim.run_of_builds builds (.start begun) with ⟨reached, through⟩
  have succeeded :=
    generate_fst (by decide : Version.ofText? "3.0" = some .v30) started through
  have distinct : (unused {} taggedBase).base.names.Nodup := by decide
  rcases tags_are_registered (unused {} taggedBase) distinct succeeded with
    ⟨assembly, given, tags, -, -, read, shown, ascending, names, descriptions, -⟩
  cases (show baseList Tag.read taggedBase "tags" =
    .ok [{ name := "b" }, { name := "a", description := some "A" }] from rfl).symm.trans read
  have accepted : (unused {} taggedBase).registered
      [{ name := "b" }, { name := "a", description := some "A" }] [serviceRoute] =
        [{ name := "b" }, { name := "a", description := some "A" }, { name := "c" },
          { name := "b", description := some "B" }, { name := "b" }] := by
    rw [registered, Generator.accepted, claims]
    rfl
  rw [accepted] at names descriptions
  exact ⟨_, tags, succeeded, shown, ascending, names, descriptions⟩

end Generator
end RouteDocs
