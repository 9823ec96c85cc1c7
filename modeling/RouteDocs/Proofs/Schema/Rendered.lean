import Mathlib.Logic.Relation
import RouteDocs.Proofs.Document.Fields
import RouteDocs.Proofs.Schema.Parts

namespace RouteDocs

/-!
# Reading a rendered schema

A rendered schema is read by its keys.  Which key has what is said here once;
statements about documents read schemas only through these equations, not
through the order in which they are written.

Further schemas stand under some of the keys, directly, in a list, or under the
name of a property.  `schemaParts` lists them.  A value that merely looks like
a schema, such as a fallback or an example, is not among them.
-/

/-! ## Keys whose value is present -/

theorem Json.mem_ofOptional {entries : List (String × Option Json)} {name : String}
    {value : Json} : (name, value) ∈ Json.ofOptional entries ↔ (name, some value) ∈ entries := by
  constructor
  · intro written
    obtain ⟨⟨key, value?⟩, listed, kept⟩ := List.mem_filterMap.mp written
    obtain ⟨shown, rfl, same⟩ := Option.map_eq_some_iff.mp kept
    cases same
    exact listed
  · intro listed
    exact List.mem_filterMap.mpr ⟨_, listed, rfl⟩

theorem Json.names_ofOptional (entries : List (String × Option Json)) :
    (Json.ofOptional entries).names.Sublist (entries.map Prod.fst) := by
  induction entries with
  | nil => exact List.Sublist.slnil
  | cons entry rest inductionHypothesis =>
    rcases entry with ⟨key, _ | value⟩
    · exact inductionHypothesis.cons key
    · exact inductionHypothesis.cons_cons key

/-- Under a key that is written once stands its value, if it has one. -/
theorem Json.get?_ofOptional {entries : List (String × Option Json)}
    (distinct : (entries.map Prod.fst).Nodup) {name : String} {value : Option Json}
    (member : (name, value) ∈ entries) : (Json.ofOptional entries).get? name = value := by
  cases value with
  | some value =>
    exact Entries.get?_of_mem (distinct.sublist (names_ofOptional entries))
      (mem_ofOptional.mpr member)
  | none =>
    apply Entries.get?_of_absent
    intro present
    obtain ⟨⟨key, value⟩, written, rfl⟩ := List.mem_map.mp present
    cases List.inj_on_of_nodup_map distinct member (mem_ofOptional.mp written) rfl

namespace Schema

theorem renderItems_eq (version : Version) (items : Option Schema) :
    renderItems version items = items.map (render version) := by
  cases items <;> simp only [renderItems, Option.map_none, Option.map_some]

theorem renderMembers_eq (version : Version) (members : List Schema) :
    renderMembers version members = members.map (render version) := by
  induction members with
  | nil => simp only [renderMembers, List.map_nil]
  | cons member rest inductionHypothesis =>
    simp only [renderMembers, inductionHypothesis, List.map_cons]

theorem renderProperties_eq (version : Version) (properties : List (String × Schema)) :
    renderProperties version properties =
      properties.map fun property => (property.1, property.2.render version) := by
  induction properties with
  | nil => simp only [renderProperties, List.map_nil]
  | cons property rest inductionHypothesis =>
    simp only [renderProperties, inductionHypothesis, List.map_cons]

@[simp] theorem render_ref (version : Version) (name : String) :
    (ref name).render version = .object [("$ref", .text (referenceMark ++ name))] := by
  rw [render]

@[simp] theorem render_inline (version : Version) (object : SchemaObject) :
    (inline object).render version = object.render version := by
  rw [render]

end Schema

namespace SchemaObject

/-- The keys of a rendered object, with their values where these are present. -/
def entries (version : Version) (object : SchemaObject) : List (String × Option Json) :=
  object.toFacets.typeEntries version ++
  object.toFacets.valueEntries version ++
  [("items", object.items.map (Schema.render version))] ++
  object.toFacets.itemEntries ++
  [("properties",
    if object.properties.isEmpty then none
    else some (.object (object.properties.map fun property =>
      (property.1, property.2.render version))))] ++
  object.toFacets.requiredEntries ++
  [("additionalProperties", Schema.renderAdditional version object.additional)] ++
  object.toFacets.propertyEntries ++
  [alternatives "oneOf" (object.oneOf.map (Schema.render version)),
   alternatives "anyOf" (object.anyOf.map (Schema.render version)),
   alternatives "allOf" (object.allOf.map (Schema.render version))] ++
  object.toFacets.exampleEntries version

theorem render_eq (version : Version) (object : SchemaObject) :
    object.render version = .object (Json.ofOptional (object.entries version)) := by
  rcases object with ⟨facets, items, properties, additional, oneOf, anyOf, allOf⟩
  simp only [render, entries, Schema.renderItems_eq, Schema.renderProperties_eq,
    Schema.renderMembers_eq]

/-- The keys of an object are different, and none of them is that of a reference. -/
theorem nodup_ref_cons_keys (version : Version) (object : SchemaObject) :
    ("$ref" :: (object.entries version).map Prod.fst).Nodup := by
  cases version <;> cases present : object.toFacets.examples <;>
    simp only [entries, Facets.typeEntries, Facets.valueEntries, Facets.boundEntries,
      Version.numericExclusiveBounds_v30, Version.numericExclusiveBounds_v31, Facets.itemEntries,
      Facets.requiredEntries, Facets.propertyEntries, Facets.exampleEntries,
      Version.examplesArray_v30, Version.examplesArray_v31, Bool.false_eq_true, if_true, if_false,
      alternatives, present, List.map_append, List.map_cons, List.map_nil] <;>
    decide

theorem nodup_keys (version : Version) (object : SchemaObject) :
    ((object.entries version).map Prod.fst).Nodup :=
  (List.nodup_cons.mp (object.nodup_ref_cons_keys version)).2

theorem field?_render {version : Version} {object : SchemaObject} {name : String}
    {value : Option Json} (member : (name, value) ∈ object.entries version) :
    (object.render version).field? name = value := by
  rw [render_eq, Json.field?_object, Json.get?_ofOptional (object.nodup_keys version) member]

variable (version : Version) (object : SchemaObject)

/-- An object is never a reference. -/
theorem field?_render_ref : (object.render version).field? "$ref" = none := by
  rw [render_eq, Json.field?_object]
  apply Entries.get?_of_absent
  intro present
  have written := (Json.names_ofOptional _).subset present
  exact (List.nodup_cons.mp (object.nodup_ref_cons_keys version)).1 written

theorem field?_render_items :
    (object.render version).field? "items" = object.items.map (Schema.render version) :=
  field?_render (by simp [entries])

theorem field?_render_properties :
    (object.render version).field? "properties" =
      if object.properties.isEmpty then none
      else some (.object (object.properties.map fun property =>
        (property.1, property.2.render version))) :=
  field?_render (by simp [entries])

theorem field?_render_additional :
    (object.render version).field? "additionalProperties" =
      Schema.renderAdditional version object.additional :=
  field?_render (by simp [entries])

theorem field?_render_oneOf :
    (object.render version).field? "oneOf" =
      (alternatives "oneOf" (object.oneOf.map (Schema.render version))).2 :=
  field?_render (by simp [entries, alternatives])

theorem field?_render_anyOf :
    (object.render version).field? "anyOf" =
      (alternatives "anyOf" (object.anyOf.map (Schema.render version))).2 :=
  field?_render (by simp [entries, alternatives])

theorem field?_render_allOf :
    (object.render version).field? "allOf" =
      (alternatives "allOf" (object.allOf.map (Schema.render version))).2 :=
  field?_render (by simp [entries, alternatives])

theorem field?_render_enum :
    (object.render version).field? "enum" = object.choices.map Json.list :=
  field?_render (by simp [entries, Facets.valueEntries])

theorem field?_render_nullable :
    (object.render .v30).field? "nullable" =
      if object.nullable then some (.bool true) else none :=
  field?_render (by simp [entries, Facets.typeEntries])

theorem field?_render_type :
    (object.render .v31).field? "type" = object.type.map fun type =>
      if object.nullable then .list [.text type.keyword, .text "null"] else .text type.keyword :=
  field?_render (by simp [entries, Facets.typeEntries])

end SchemaObject

/-! ## The schemas inside a schema -/

namespace Json

/-- The schemas that stand directly inside a written schema. -/
def schemaParts (schema : Json) : List Json :=
  (entriesOf (schema.field? "properties")).values ++ (schema.field? "items").toList ++
    (schema.field? "additionalProperties").toList ++ itemsOf (schema.field? "oneOf") ++
    itemsOf (schema.field? "anyOf") ++ itemsOf (schema.field? "allOf")

/-- A written schema refers to a target when it is a reference to it or has a
schema inside that refers to it. -/
inductive RefersTo : Json → String → Prop where
  | here {schema : Json} {target : String}
      (found : schema.field? "$ref" = some (.text target)) : RefersTo schema target
  | inside {schema part : Json} {target : String} (member : part ∈ schema.schemaParts)
      (refers : RefersTo part target) : RefersTo schema target

theorem not_refersTo_bool (flag : Bool) (target : String) : ¬(Json.bool flag).RefersTo target := by
  intro refers
  cases refers with
  | here found => cases found
  | inside member _ => cases member

theorem values_withoutReservedEntries (entries : Entries Json) :
    (Entries.values (withoutReservedEntries entries)).Sublist
      (entries.values.map withoutReserved) := by
  rw [withoutReservedEntries_eq, Entries.values, Entries.values, List.map_map, List.map_map]
  exact List.filter_sublist.map _

/-- Taking out the reserved keys adds no schema inside a schema. -/
theorem schemaParts_withoutReserved (schema : Json) :
    (withoutReserved schema).schemaParts.Sublist (schema.schemaParts.map withoutReserved) := by
  simp only [schemaParts, field?_withoutReserved _ (by decide : isReserved "properties" = false),
    field?_withoutReserved _ (by decide : isReserved "items" = false),
    field?_withoutReserved _ (by decide : isReserved "additionalProperties" = false),
    field?_withoutReserved _ (by decide : isReserved "oneOf" = false),
    field?_withoutReserved _ (by decide : isReserved "anyOf" = false),
    field?_withoutReserved _ (by decide : isReserved "allOf" = false),
    entriesOf_withoutReserved, itemsOf_withoutReserved, List.map_append, Option.toList_map]
  have properties := values_withoutReservedEntries (entriesOf (schema.field? "properties"))
  exact properties.append_right _ |>.append_right _ |>.append_right _ |>.append_right _
    |>.append_right _

end Json

namespace SchemaObject

theorem itemsOf_alternatives (key : String) (members : List Json) :
    Json.itemsOf (alternatives key members).2 = members := by
  unfold alternatives
  split
  · next empty => exact (List.isEmpty_iff.mp empty).symm
  · rfl

/-- The schemas inside a written object are its parts, besides a flag about
properties without a name. -/
theorem mem_schemaParts_render {version : Version} {object : SchemaObject} {part : Json}
    (member : part ∈ (object.render version).schemaParts) :
    (∃ inner ∈ object.parts, part = inner.render version) ∨ ∃ flag, part = .bool flag := by
  simp only [Json.schemaParts, field?_render_properties, field?_render_items,
    field?_render_additional, field?_render_oneOf, field?_render_anyOf, field?_render_allOf,
    itemsOf_alternatives, List.mem_append, List.mem_map, Option.mem_toList] at member
  have ofPart : ∀ inner ∈ object.parts, inner.render version = part →
      (∃ inner ∈ object.parts, part = inner.render version) ∨ ∃ flag, part = .bool flag :=
    fun inner listed same => Or.inl ⟨inner, listed, same.symm⟩
  rcases member with
    ((((property | item) | further) | ⟨inner, listed, same⟩) | ⟨inner, listed, same⟩) |
      ⟨inner, listed, same⟩
  · split at property
    · cases property
    · obtain ⟨entry, written, rfl⟩ := List.mem_map.mp property
      obtain ⟨source, listed, rfl⟩ := List.mem_map.mp written
      exact ofPart source.2 (by simp [parts, List.mem_map_of_mem listed]) rfl
  · obtain ⟨inner, found, same⟩ := Option.map_eq_some_iff.mp item
    exact ofPart inner (by simp [parts, found]) same
  · rcases found : object.additional with _ | (flag | inner)
    · simp only [found, Schema.renderAdditional, reduceCtorEq] at further
    · simp only [found, Schema.renderAdditional, Option.some.injEq] at further
      exact Or.inr ⟨flag, further.symm⟩
    · simp only [found, Schema.renderAdditional, Option.some.injEq] at further
      exact ofPart inner (by simp [parts, further?, found]) further
  all_goals exact ofPart inner (by simp [parts, listed]) same

theorem render_mem_schemaParts (version : Version) {object : SchemaObject} {inner : Schema}
    (member : inner ∈ object.parts) :
    inner.render version ∈ (object.render version).schemaParts := by
  simp only [parts, List.mem_append, List.mem_map, Option.mem_toList] at member
  simp only [Json.schemaParts, field?_render_properties, field?_render_items,
    field?_render_additional, field?_render_oneOf, field?_render_anyOf, field?_render_allOf,
    itemsOf_alternatives, List.mem_append, List.mem_map, Option.mem_toList]
  rcases member with
    ((((⟨property, listed, rfl⟩ | item) | further) | alternative) | alternative) | alternative
  · have some : object.properties.isEmpty = false :=
      List.isEmpty_eq_false_iff.mpr (List.ne_nil_of_mem listed)
    simp only [some, Bool.false_eq_true, if_false, Json.entriesOf, Entries.values]
    exact Or.inl (Or.inl (Or.inl (Or.inl (Or.inl
      (List.mem_map_of_mem (List.mem_map_of_mem listed))))))
  · simp [item]
  · unfold further? at further
    split at further
    · next schema found =>
      cases further
      simp [found, Schema.renderAdditional]
    · cases further
  · exact Or.inl (Or.inl (Or.inr ⟨inner, alternative, rfl⟩))
  · exact Or.inl (Or.inr ⟨inner, alternative, rfl⟩)
  · exact Or.inr ⟨inner, alternative, rfl⟩

end SchemaObject

namespace Schema

/-- A schema is written inside the schemas around it. -/
theorem render_within (version : Version) {schema inner : Schema}
    (inside : inner ∈ schema.subschemas) :
    Relation.ReflTransGen (fun outer part => part ∈ Json.schemaParts outer)
      (schema.render version) (inner.render version) := by
  induction schema with
  | ref name =>
    rw [subschemas_ref, List.mem_singleton] at inside
    rw [inside]
  | inline object inductionHypothesis =>
    rw [subschemas_inline, List.mem_cons, List.mem_flatMap] at inside
    rcases inside with rfl | ⟨part, member, inside⟩
    · exact .refl
    · refine .head ?_ (inductionHypothesis part member inside)
      rw [render_inline]
      exact SchemaObject.render_mem_schemaParts version member

/-- What a schema refers to when it is written and rid of reserved keys are the
components that it mentions. -/
theorem mentions_of_refersTo {version : Version} {schema : Schema} {target : String}
    (refers : (Json.withoutReserved (schema.render version)).RefersTo target) :
    ∃ name, target = referenceMark ++ name ∧ schema.Mentions name := by
  generalize written : Json.withoutReserved (schema.render version) = value at refers
  induction refers generalizing schema with
  | here found =>
    subst written
    cases schema with
    | ref name =>
      rw [render_ref] at found
      cases found
      exact ⟨name, rfl, mentions_ref.mpr rfl⟩
    | inline object =>
      rw [render_inline, Json.field?_withoutReserved _ (by decide), object.field?_render_ref]
        at found
      cases found
  | inside member refers inductionHypothesis =>
    subst written
    obtain ⟨original, listed, rfl⟩ :=
      List.mem_map.mp ((Json.schemaParts_withoutReserved _).subset member)
    cases schema with
    | ref name =>
      rw [render_ref] at listed
      cases listed
    | inline object =>
      rw [render_inline] at listed
      rcases SchemaObject.mem_schemaParts_render listed with ⟨inner, part, rfl⟩ | ⟨flag, rfl⟩
      · obtain ⟨name, same, mentioned⟩ := inductionHypothesis rfl
        exact ⟨name, same, mentions_inline.mpr
          (SchemaObject.mentions_iff.mpr ⟨inner, part, mentioned⟩)⟩
      · exact absurd refers (Json.not_refersTo_bool flag _)

end Schema
end RouteDocs
