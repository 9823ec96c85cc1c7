import Mathlib.Data.List.Nodup
import RouteDocs.Proofs.Store.References

namespace RouteDocs

/-!
# Names that cannot meet

What is lifted inside a part is stored under the name of the part or within it.
Two names may differ and still meet further down: a property `a.b` stands beside
a property `a` with a property `b` inside.  Names without a point exclude this,
because the part that follows a name can be read off every name within it.

Where the parts of every object are placed under names that are apart, no name
is registered twice, and there is exactly one registration for each object that
names properties.
-/

/-- A name covers itself and every name within it. -/
def Covers (name target : String) : Prop :=
  target = name ∨ Within name target

theorem Covers.trans {first second third : String} (outer : Covers first second)
    (inner : Covers second third) : Covers first third := by
  rcases inner with rfl | deeper
  · exact outer
  · rcases outer with rfl | within
    · exact Or.inr deeper
    · exact Or.inr (within.trans deeper)

/-- Two names are apart when no name is covered by both. -/
def Apart (first second : String) : Prop :=
  ∀ target, Covers first target → ¬Covers second target

def WithoutPoint (name : String) : Prop :=
  '.' ∉ name.toList

instance (name : String) : Decidable (WithoutPoint name) :=
  inferInstanceAs (Decidable ('.' ∉ name.toList))

/-- The part that follows a name is spelled in every name it covers, up to the next point. -/
theorem Covers.part_eq {name part target : String} (plain : WithoutPoint part)
    (covers : Covers (componentName name part) target) :
    (target.toList.drop (name.toList.length + 1)).takeWhile (· != '.') = part.toList := by
  have spelled : ∃ rest : List Char, target.toList = name.toList ++ '.' :: (part.toList ++ rest) ∧
      rest.takeWhile (· != '.') = [] := by
    rcases covers with rfl | ⟨further, rfl⟩
    · exact ⟨[], by simp [componentName], rfl⟩
    · exact ⟨'.' :: further.toList, by simp [componentName], rfl⟩
  have kept : ∀ character ∈ part.toList, (character != '.') = true := by
    intro character member
    rw [bne_iff_ne]
    rintro rfl
    exact plain member
  rcases spelled with ⟨rest, spelled, ends⟩
  rw [spelled, List.drop_append, List.drop_of_length_le (Nat.le_succ _), List.nil_append,
    Nat.add_sub_cancel_left, List.drop_one, List.tail_cons, List.takeWhile_append_of_pos kept, ends,
    List.append_nil]

/-- Different parts without a point lead apart. -/
theorem apart_of_ne {first second : String} (firstPlain : WithoutPoint first)
    (secondPlain : WithoutPoint second) (different : first ≠ second) (name : String) :
    Apart (componentName name first) (componentName name second) := by
  intro target coversFirst coversSecond
  apply different
  rw [← String.toList_inj]
  exact (coversFirst.part_eq firstPlain).symm.trans (coversSecond.part_eq secondPlain)

theorem toList_toString (number : Nat) : (toString number).toList = Nat.toDigits 10 number := by
  rw [Nat.toString_eq_ofList_toDigits, String.toList_ofList]

theorem withoutPoint_toString (number : Nat) : WithoutPoint (toString number) := by
  intro member
  rw [toList_toString] at member
  have digit := Nat.isDigit_of_mem_toDigits (by decide) (by decide) member
  cases digit

theorem toString_injective {first second : Nat} (same : toString first = toString second) :
    first = second := by
  rw [← String.toList_inj, toList_toString, toList_toString] at same
  calc
    first = Nat.ofDigitChars 10 (Nat.toDigits 10 first) 0 := Nat.ofDigitChars_ten_toDigits.symm
    _ = Nat.ofDigitChars 10 (Nat.toDigits 10 second) 0 := by rw [same]
    _ = second := Nat.ofDigitChars_ten_toDigits

/-- Names that are declared together without a repetition, as a table of fields
has them anyway, and without a point. -/
structure PlainNames (names : List String) : Prop where
  distinct : names.Nodup
  withoutPoint : ∀ name ∈ names, WithoutPoint name

instance (names : List String) : Decidable (PlainNames names) :=
  decidable_of_iff (names.Nodup ∧ ∀ name ∈ names, WithoutPoint name)
    ⟨fun both => ⟨both.1, both.2⟩, fun plain => ⟨plain.distinct, plain.withoutPoint⟩⟩

theorem PlainNames.sublist {names others : List String} (plain : PlainNames names)
    (fewer : others.Sublist names) : PlainNames others where
  distinct := plain.distinct.sublist fewer
  withoutPoint name member := plain.withoutPoint name (fewer.subset member)

/-- The parts of an object are placed under names that are apart. -/
def SchemaObject.PlacesApart (object : SchemaObject) : Prop :=
  ∀ name, (object.placedParts name).Pairwise fun first second => Apart first.1 second.1

/-- Alternatives are placed apart by their numbers. -/
theorem Schema.numbered_apart (members : List Schema) (name : String) (number : Nat) :
    (numbered members name number).Pairwise fun first second => Apart first.1 second.1 := by
  induction members generalizing number with
  | nil => exact List.Pairwise.nil
  | cons first rest inductionHypothesis =>
    rw [numbered_cons]
    refine List.Pairwise.cons ?_ (inductionHypothesis (number + 1))
    intro placed member
    rcases List.mem_map.mp member with ⟨later, listed, rfl⟩
    have behind : number + 1 ≤ later.2 := List.le_snd_of_mem_zipIdx listed
    apply apart_of_ne (withoutPoint_toString number) (withoutPoint_toString later.2)
    intro same
    have equal : number = later.2 := toString_injective same
    omega

/-- Properties are placed apart by their names. -/
theorem Entries.placed_apart {properties : Entries Schema} (plain : PlainNames properties.names)
    (name : String) :
    (properties.map fun property => (componentName name property.1, property.2)).Pairwise
      fun first second => Apart first.1 second.1 := by
  rw [List.pairwise_map]
  apply (List.pairwise_map.mp plain.distinct).imp_of_mem
  intro first second firstMember secondMember different
  exact apart_of_ne (plain.withoutPoint _ (List.mem_map_of_mem firstMember))
    (plain.withoutPoint _ (List.mem_map_of_mem secondMember)) different name

namespace SchemaObject

variable {object : SchemaObject}

/-- A single part has nothing to meet. -/
theorem placesApart_of_length (few : object.parts.length ≤ 1) : object.PlacesApart := by
  intro name
  rw [← object.map_snd_placedParts name, List.length_map] at few
  generalize object.placedParts name = placed at few
  rcases placed with _ | ⟨first, _ | ⟨second, rest⟩⟩
  · exact List.Pairwise.nil
  · exact List.pairwise_singleton _ first
  · simp only [List.length_cons] at few
    omega

/-- What the parts of an object register is registered for one of them. -/
theorem exists_placed_of_registered {name target : String}
    (registered : target ∈ Entries.names (object.registrations name)) :
    ∃ placed ∈ object.placedParts name,
      target ∈ Entries.names (placed.2.registrations placed.1) := by
  rcases List.mem_map.mp registered with ⟨entry, listed, rfl⟩
  rcases List.mem_flatMap.mp listed with ⟨placed, member, found⟩
  exact ⟨placed, member, List.mem_map_of_mem found⟩

end SchemaObject

namespace Schema

/-- Everything that is registered under a name is registered at it or within it. -/
theorem covers_of_registered {schema : Schema} {name target : String}
    (registered : target ∈ Entries.names (schema.registrations name)) : Covers name target := by
  induction schema generalizing name with
  | ref label =>
    rw [registrations_ref] at registered
    cases registered
  | inline object inductionHypothesis =>
    rw [registrations_inline, Entries.names_append] at registered
    rcases List.mem_append.mp registered with inside | own
    · rcases SchemaObject.exists_placed_of_registered inside with ⟨placed, member, found⟩
      have outer : Covers name placed.1 := SchemaObject.placed_eq_or_within member
      have part := SchemaObject.mem_parts_of_mem_placedParts member
      exact outer.trans (inductionHypothesis placed.2 part found)
    · split at own
      · exact Or.inl (List.mem_singleton.mp own)
      · cases own

end Schema

namespace SchemaObject

variable {object : SchemaObject}

/-- No part is registered under the name of its object, when all are placed within it. -/
theorem fresh_of_within {name : String}
    (within : ∀ placed ∈ object.placedParts name, Within name placed.1) :
    name ∉ Entries.names (object.registrations name) := by
  intro registered
  rcases exists_placed_of_registered registered with ⟨placed, member, found⟩
  have outer := within placed member
  rcases Schema.covers_of_registered found with equal | deeper
  · exact Nat.lt_irrefl _ (equal ▸ outer.length_lt)
  · exact Nat.lt_asymm outer.length_lt deeper.length_lt

/-- Parts that are placed apart register no name twice, when none of them does. -/
theorem PlacesApart.nodup_registrations (apart : object.PlacesApart) {name : String}
    (parts : ∀ placed ∈ object.placedParts name,
      (Entries.names (placed.2.registrations placed.1)).Nodup) :
    (Entries.names (object.registrations name)).Nodup := by
  rw [registrations, Schema.registrationsOf, Entries.names, List.map_flatMap, List.nodup_flatMap]
  refine ⟨parts, (apart name).imp ?_⟩
  intro first second apartNames target inFirst inSecond
  exact apartNames target (Schema.covers_of_registered inFirst) (Schema.covers_of_registered inSecond)

end SchemaObject

/-- A schema without references registers no name twice, when all its objects
place their parts apart and stored ones keep their names for themselves. -/
theorem Schema.nodup_names_registrations {schema : Schema}
    (separates : schema.Everywhere SchemaObject.SeparatesNames)
    (apart : schema.Everywhere SchemaObject.PlacesApart) (name : String) :
    (Entries.names (schema.registrations name)).Nodup := by
  induction schema generalizing name with
  | ref label => exact absurd separates not_everywhere_ref
  | inline object inductionHypothesis =>
    rcases everywhere_inline.mp separates with ⟨ownName, separateParts⟩
    rcases everywhere_inline.mp apart with ⟨ownApart, apartParts⟩
    have inside : (Entries.names (object.registrations name)).Nodup := by
      apply ownApart.nodup_registrations
      intro placed member
      have part := SchemaObject.mem_parts_of_mem_placedParts member
      exact inductionHypothesis placed.2 part (separateParts placed.2 part)
        (apartParts placed.2 part) placed.1
    rw [registrations_inline]
    split
    · next named =>
      have fresh : name ∉ Entries.names (object.registrations name) :=
        SchemaObject.fresh_of_within fun placed member => ownName.within named member
      exact Entries.nodup_names_concat inside fresh _
    · rw [List.append_nil]
      exact inside

/-! ## One registration for each named object -/

/-- The objects with at least one property inside a schema, at every depth, the
schema itself included. -/
def Schema.namedObjects (schema : Schema) : List SchemaObject :=
  (schema.subschemas.filterMap object?).filter SchemaObject.isNamedObject

/-- Registrations of given objects: in some order exactly one for each, lifted
under the name it is registered under. -/
def Registrations.OneEach (registrations : Registrations) (objects : List SchemaObject) : Prop :=
  ∃ placed : Entries SchemaObject, placed.values = objects ∧
    registrations.Perm (placed.map fun entry => (entry.1, entry.2.lifted entry.1))

namespace Registrations

theorem OneEach.nil : OneEach [] [] :=
  ⟨[], rfl, List.Perm.nil⟩

theorem OneEach.single (name : String) (object : SchemaObject) :
    OneEach [(name, object.lifted name)] [object] :=
  ⟨[(name, object)], rfl, List.Perm.refl _⟩

theorem OneEach.append {first second : Registrations} {objects others : List SchemaObject}
    (firstEach : OneEach first objects) (secondEach : OneEach second others) :
    OneEach (first ++ second) (objects ++ others) := by
  rcases firstEach with ⟨firstPlaced, rfl, firstPerm⟩
  rcases secondEach with ⟨secondPlaced, rfl, secondPerm⟩
  refine ⟨firstPlaced ++ secondPlaced, List.map_append, ?_⟩
  rw [List.map_append]
  exact firstPerm.append secondPerm

theorem OneEach.perm {registrations others : Registrations} {objects : List SchemaObject}
    (each : OneEach registrations objects) (same : others.Perm registrations) :
    OneEach others objects := by
  rcases each with ⟨placed, listed, perm⟩
  exact ⟨placed, listed, same.trans perm⟩

theorem OneEach.length_eq {registrations : Registrations} {objects : List SchemaObject}
    (each : OneEach registrations objects) : registrations.length = objects.length := by
  rcases each with ⟨placed, rfl, perm⟩
  rw [perm.length_eq, List.length_map, Entries.values, List.length_map]

end Registrations

namespace Schema

theorem namedObjects_ref (label : String) : (ref label).namedObjects = [] := by
  rw [namedObjects, subschemas_ref]
  rfl

theorem namedObjects_inline (object : SchemaObject) :
    (inline object).namedObjects =
      (if object.isNamedObject then [object] else []) ++ object.parts.flatMap namedObjects := by
  have inside : ((object.parts.flatMap subschemas).filterMap object?).filter
      SchemaObject.isNamedObject = object.parts.flatMap namedObjects := by
    rw [List.filterMap_flatMap, List.filter_flatMap]
    rfl
  have own : object? (inline object) = some object := rfl
  rw [namedObjects, subschemas_inline, List.filterMap_cons_some own, List.filter_cons, inside]
  split
  · rfl
  · rfl

/-- Placed schemas register one each of their objects, when every one of them does. -/
theorem registrationsOf_oneEach {placed : List (String × Schema)}
    (each : ∀ part ∈ placed, (part.2.registrations part.1).OneEach part.2.namedObjects) :
    (registrationsOf placed).OneEach (placed.flatMap fun part => part.2.namedObjects) := by
  induction placed with
  | nil => exact .nil
  | cons first rest inductionHypothesis =>
    rcases List.forall_mem_cons.mp each with ⟨firstEach, restEach⟩
    exact firstEach.append (inductionHypothesis restEach)

end Schema

theorem SchemaObject.registrations_oneEach {object : SchemaObject}
    (each : ∀ part ∈ object.parts, ∀ name, (part.registrations name).OneEach part.namedObjects)
    (name : String) :
    (object.registrations name).OneEach (object.parts.flatMap Schema.namedObjects) := by
  rw [← object.map_snd_placedParts name, List.flatMap_map]
  apply Schema.registrationsOf_oneEach
  intro placed member
  exact each placed.2 (mem_parts_of_mem_placedParts member) placed.1

/-- Lifting registers each object that names properties once. -/
theorem Schema.registrations_oneEach (schema : Schema) (name : String) :
    (schema.registrations name).OneEach schema.namedObjects := by
  induction schema generalizing name with
  | ref label =>
    rw [registrations_ref, namedObjects_ref]
    exact .nil
  | inline object inductionHypothesis =>
    have inside := SchemaObject.registrations_oneEach inductionHypothesis name
    rw [registrations_inline, namedObjects_inline]
    split
    · -- The object itself is registered after the objects inside it.
      exact ((Registrations.OneEach.single name object).append inside).perm List.perm_append_comm
    · rw [List.append_nil]
      exact inside

end RouteDocs
