import RouteDocs.Proofs.Store.Lifting

namespace RouteDocs

/-!
# References lead downwards

A component is named after the component around it, so a reference that lifting
leaves behind should lead to a longer name.  There is one exception to guard
against: items and further properties are lifted under the name of the object
around them.  If that object is itself stored, one of the two would replace
the other and the reference would lead back to its own component.
`SeparatesNames` excludes exactly this, and it is all that the following
statements ask of a schema besides having no references of its own.
-/

/-- A name within another: the other name, a point, and a further part. -/
def Within (name target : String) : Prop :=
  ∃ part, target = componentName name part

namespace Within

theorem componentName_self (name part : String) : Within name (componentName name part) :=
  ⟨part, rfl⟩

theorem trans {first second third : String} (outer : Within first second)
    (inner : Within second third) : Within first third := by
  obtain ⟨part, rfl⟩ := outer
  obtain ⟨rest, rfl⟩ := inner
  refine ⟨componentName part rest, ?_⟩
  simp only [componentName, String.append_assoc]

theorem length_lt {name target : String} (within : Within name target) :
    name.length < target.length := by
  obtain ⟨part, rfl⟩ := within
  have point : (".").length = 1 := rfl
  simp only [componentName, String.length_append, point]
  omega

end Within

/-- An object that is stored where it is nested has neither items nor schemas
for further properties, which would be stored under its own name. -/
def SchemaObject.SeparatesNames (object : SchemaObject) : Prop :=
  object.isNamedObject = true → object.items = none ∧ object.further? = none

/-- Every reference inside a registered object leads to a known name within
the name of that object. -/
def Registrations.Descend (registrations : Registrations) (known : String → Prop) : Prop :=
  ∀ entry ∈ registrations, ∀ target, entry.2.Mentions target →
    known target ∧ Within entry.1 target

namespace Registrations

theorem Descend.imp {registrations : Registrations} {known more : String → Prop}
    (descend : registrations.Descend known) (wider : ∀ target, known target → more target) :
    registrations.Descend more := by
  intro entry member target mentioned
  obtain ⟨found, within⟩ := descend entry member target mentioned
  exact ⟨wider target found, within⟩

theorem Descend.append {first second : Registrations} {known : String → Prop}
    (descendFirst : Descend first known) (descendSecond : Descend second known) :
    Descend (first ++ second) known := by
  intro entry member
  rcases List.mem_append.mp member with earlier | later
  · exact descendFirst entry earlier
  · exact descendSecond entry later

end Registrations

namespace SchemaObject

/-- A part is lifted under the name of its object or under one within it. -/
theorem placed_eq_or_within {object : SchemaObject} {name : String} {placed : String × Schema}
    (member : placed ∈ object.placedParts name) : placed.1 = name ∨ Within name placed.1 := by
  simp only [placedParts, Schema.numbered, List.mem_append, List.mem_map] at member
  rcases member with ((((⟨_, _, rfl⟩ | ⟨_, _, rfl⟩) | ⟨_, _, rfl⟩) | ⟨_, _, rfl⟩) | ⟨_, _, rfl⟩) |
    ⟨_, _, rfl⟩
  · exact Or.inr (Within.componentName_self name _)
  · exact Or.inl rfl
  · exact Or.inl rfl
  all_goals exact Or.inr (Within.componentName_self name _)

/-- In a stored object every part is lifted under a name within that of the object. -/
theorem SeparatesNames.within {object : SchemaObject} (separates : object.SeparatesNames)
    (named : object.isNamedObject = true) {name : String} {placed : String × Schema}
    (member : placed ∈ object.placedParts name) : Within name placed.1 := by
  obtain ⟨noItems, noFurther⟩ := separates named
  simp only [placedParts, Schema.numbered, noItems, noFurther, Option.toList_none, List.map_nil,
    List.append_nil, List.mem_append, List.mem_map] at member
  rcases member with ((⟨_, _, rfl⟩ | ⟨_, _, rfl⟩) | ⟨_, _, rfl⟩) | ⟨_, _, rfl⟩
  all_goals exact Within.componentName_self name _

/-- A reference inside a lifted object comes from one of its lifted parts. -/
theorem mentions_lifted {object : SchemaObject} {name target : String} :
    (object.lifted name).Mentions target ↔
      ∃ placed ∈ object.placedParts name, (placed.2.lifted placed.1).Mentions target := by
  rw [mentions_iff, parts_lifted]
  constructor
  · rintro ⟨part, listed, inside⟩
    obtain ⟨placed, member, rfl⟩ := List.mem_map.mp listed
    exact ⟨placed, member, inside⟩
  · rintro ⟨placed, member, inside⟩
    exact ⟨_, List.mem_map.mpr ⟨placed, member, rfl⟩, inside⟩

theorem mem_names_registrations {object : SchemaObject} {name target : String}
    {placed : String × Schema} (member : placed ∈ object.placedParts name)
    (registered : target ∈ Entries.names (placed.2.registrations placed.1)) :
    target ∈ Entries.names (object.registrations name) := by
  obtain ⟨entry, found, rfl⟩ := List.mem_map.mp registered
  exact List.mem_map_of_mem (List.mem_flatMap.mpr ⟨placed, member, found⟩)

end SchemaObject

namespace Schema

theorem mem_names_of_registrations_object {object : SchemaObject} {name target : String}
    (registered : target ∈ Entries.names (object.registrations name)) :
    target ∈ Entries.names ((inline object).registrations name) := by
  rw [registrations_inline, Entries.names, List.map_append]
  exact List.mem_append_left _ registered

/-- What lifting leaves refers only to what it registers, at its name or within it. -/
theorem registered_of_mentions_lifted {schema : Schema}
    (everywhere : schema.Everywhere SchemaObject.SeparatesNames) {name target : String}
    (mentioned : (schema.lifted name).Mentions target) :
    target ∈ Entries.names (schema.registrations name) ∧ (target = name ∨ Within name target) := by
  induction schema generalizing name with
  | ref label => exact absurd everywhere not_everywhere_ref
  | inline object inductionHypothesis =>
    obtain ⟨-, parts⟩ := everywhere_inline.mp everywhere
    rw [lifted_inline] at mentioned
    split at mentioned
    · next named =>
      rw [mentions_ref] at mentioned
      refine ⟨?_, Or.inl mentioned⟩
      rw [registrations_inline, if_pos named, mentioned]
      simp [Entries.names]
    · rw [mentions_inline, SchemaObject.mentions_lifted] at mentioned
      obtain ⟨placed, member, inside⟩ := mentioned
      have part := SchemaObject.mem_parts_of_mem_placedParts member
      obtain ⟨registered, place⟩ := inductionHypothesis placed.2 part (parts placed.2 part) inside
      refine ⟨mem_names_of_registrations_object
        (SchemaObject.mem_names_registrations member registered), ?_⟩
      rcases SchemaObject.placed_eq_or_within member with same | outer
      · exact same ▸ place
      · rcases place with same | inner
        · exact Or.inr (same ▸ outer)
        · exact Or.inr (outer.trans inner)

/-- The references inside the registered objects lead downwards, to registered names. -/
theorem registrations_descend {schema : Schema}
    (everywhere : schema.Everywhere SchemaObject.SeparatesNames) (name : String) :
    (schema.registrations name).Descend (· ∈ Entries.names (schema.registrations name)) := by
  induction schema generalizing name with
  | ref label => exact absurd everywhere not_everywhere_ref
  | inline object inductionHypothesis =>
    obtain ⟨separates, parts⟩ := everywhere_inline.mp everywhere
    have inner : (object.registrations name).Descend
        (· ∈ Entries.names ((inline object).registrations name)) := by
      intro entry registered
      obtain ⟨placed, member, found⟩ := List.mem_flatMap.mp registered
      have part := SchemaObject.mem_parts_of_mem_placedParts member
      refine (inductionHypothesis placed.2 part (parts placed.2 part) placed.1).imp ?_ entry found
      intro target known
      exact mem_names_of_registrations_object
        (SchemaObject.mem_names_registrations member known)
    have own : Registrations.Descend
        (if object.isNamedObject then [(name, object.lifted name)] else [])
        (· ∈ Entries.names ((inline object).registrations name)) := by
      intro entry registered target mentioned
      split at registered
      · next named =>
        cases List.mem_singleton.mp registered
        obtain ⟨placed, member, inside⟩ := SchemaObject.mentions_lifted.mp mentioned
        have part := SchemaObject.mem_parts_of_mem_placedParts member
        obtain ⟨known, place⟩ := registered_of_mentions_lifted (parts placed.2 part) inside
        refine ⟨mem_names_of_registrations_object
          (SchemaObject.mem_names_registrations member known), ?_⟩
        have outer := separates.within named member
        rcases place with same | deeper
        · exact same ▸ outer
        · exact outer.trans deeper
      · cases registered
    have all := inner.append own
    rwa [← registrations_inline] at all

end Schema
end RouteDocs
