import RouteDocs.Schema.Basic

namespace RouteDocs

/-!
# The parts of a schema

An inline schema holds further schemas: those of its properties, of its items,
of the properties it does not name, and of its alternatives.  `parts` lists
them in the order in which they are lifted, and `subschemas` lists every schema
at every depth, references included.  What is said of all subschemas is said
of the whole schema, so the statements about references below never speak of
a particular keyword.
-/

namespace SchemaObject

/-- The schema of the properties that are not named, when they have one. -/
def further? (object : SchemaObject) : Option Schema :=
  match object.additional with
  | some (.schema schema) => some schema
  | _ => none

/-- The schemas that stand directly inside an object. -/
def parts (object : SchemaObject) : List Schema :=
  object.properties.map Prod.snd ++ object.items.toList ++ object.further?.toList ++
    object.oneOf ++ object.anyOf ++ object.allOf

theorem sizeOf_lt_of_mem_parts {object : SchemaObject} {part : Schema}
    (member : part ∈ object.parts) : sizeOf part < sizeOf object := by
  rcases object with ⟨facets, items, properties, additional, oneOf, anyOf, allOf⟩
  simp only [parts, further?, List.mem_append, List.mem_map, Option.mem_toList] at member
  simp only [SchemaObject.mk.sizeOf_spec]
  rcases member with ((((⟨property, listed, rfl⟩ | same) | inside) | listed) | listed) | listed
  · have smaller := List.sizeOf_lt_of_mem listed
    have inner : sizeOf property.2 < sizeOf property := by
      rcases property with ⟨name, schema⟩
      simp only [Prod.mk.sizeOf_spec]
      omega
    omega
  · subst same
    simp only [Option.some.sizeOf_spec]
    omega
  · split at inside
    · cases inside
      simp only [Option.some.sizeOf_spec, Additional.schema.sizeOf_spec]
      omega
    · cases inside
  all_goals
    have smaller := List.sizeOf_lt_of_mem listed
    omega

theorem properties_of_parts_nil {object : SchemaObject} (none : object.parts = []) :
    object.properties = [] := by
  simp only [parts, List.append_eq_nil_iff, List.map_eq_nil_iff] at none
  exact none.1.1.1.1.1

end SchemaObject

namespace Schema

/-- Induction over a schema, through the parts of its objects. -/
@[elab_as_elim, induction_eliminator]
theorem inductionOnParts {motive : Schema → Prop}
    (ref : ∀ name, motive (.ref name))
    (inline : ∀ object : SchemaObject, (∀ part ∈ object.parts, motive part) →
      motive (.inline object)) (schema : Schema) : motive schema :=
  match schema with
  | .ref name => ref name
  | .inline object => inline object fun part _ => inductionOnParts ref inline part
termination_by sizeOf schema
decreasing_by
  rename_i member
  have smaller := SchemaObject.sizeOf_lt_of_mem_parts member
  simp only [Schema.inline.sizeOf_spec]
  omega

/-- A schema with all schemas inside it, at every depth. -/
def subschemas (schema : Schema) : List Schema :=
  match schema with
  | .ref name => [.ref name]
  | .inline object =>
    .inline object :: object.parts.attach.flatMap fun part => subschemas part.1
termination_by sizeOf schema
decreasing_by
  have smaller := SchemaObject.sizeOf_lt_of_mem_parts part.2
  simp only [Schema.inline.sizeOf_spec]
  omega

@[simp] theorem subschemas_ref (name : String) : (ref name).subschemas = [.ref name] := by
  rw [subschemas]

@[simp] theorem subschemas_inline (object : SchemaObject) :
    (inline object).subschemas = .inline object :: object.parts.flatMap subschemas := by
  rw [subschemas]
  simp only [List.flatMap_subtype, List.unattach_attach]

end Schema

def SchemaObject.subschemas (object : SchemaObject) : List Schema :=
  object.parts.flatMap Schema.subschemas

namespace Schema

/-- A schema mentions a component when a reference to it occurs at some depth. -/
def Mentions (schema : Schema) (target : String) : Prop :=
  .ref target ∈ schema.subschemas

/-- A schema without references whose inline objects all satisfy a condition. -/
def Everywhere (condition : SchemaObject → Prop) (schema : Schema) : Prop :=
  ∀ inner ∈ schema.subschemas, ∃ object, inner = .inline object ∧ condition object

end Schema

def SchemaObject.Mentions (object : SchemaObject) (target : String) : Prop :=
  .ref target ∈ object.subschemas

theorem SchemaObject.mentions_iff {object : SchemaObject} {target : String} :
    object.Mentions target ↔ ∃ part ∈ object.parts, part.Mentions target := by
  simp only [SchemaObject.Mentions, SchemaObject.subschemas, List.mem_flatMap, Schema.Mentions]

namespace Schema

@[simp] theorem mentions_ref {name target : String} :
    (ref name).Mentions target ↔ target = name := by
  simp only [Mentions, subschemas_ref, List.mem_singleton, Schema.ref.injEq]

@[simp] theorem mentions_inline {object : SchemaObject} {target : String} :
    (inline object).Mentions target ↔ object.Mentions target := by
  simp only [Mentions, subschemas_inline, List.mem_cons, reduceCtorEq, false_or,
    SchemaObject.Mentions, SchemaObject.subschemas]

theorem not_everywhere_ref {condition : SchemaObject → Prop} {name : String} :
    ¬(ref name).Everywhere condition := by
  intro everywhere
  obtain ⟨object, impossible, -⟩ := everywhere (.ref name) (by simp)
  cases impossible

theorem everywhere_inline {condition : SchemaObject → Prop} {object : SchemaObject} :
    (inline object).Everywhere condition ↔
      condition object ∧ ∀ part ∈ object.parts, part.Everywhere condition := by
  constructor
  · intro everywhere
    constructor
    · obtain ⟨same, equal, holds⟩ := everywhere (.inline object) (by simp)
      cases equal
      exact holds
    · intro part member inner inside
      apply everywhere inner
      rw [subschemas_inline]
      exact List.mem_cons_of_mem _ (List.mem_flatMap.mpr ⟨part, member, inside⟩)
  · rintro ⟨holds, everywhere⟩ inner inside
    rw [subschemas_inline, List.mem_cons, List.mem_flatMap] at inside
    rcases inside with rfl | ⟨part, member, inside⟩
    · exact ⟨object, rfl, holds⟩
    · exact everywhere part member inner inside

end Schema
end RouteDocs
