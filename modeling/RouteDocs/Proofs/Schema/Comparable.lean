import RouteDocs.Proofs.Schema.Same
import RouteDocs.Proofs.Store.Naming

namespace RouteDocs

/-!
# Schemas that are the same as themselves

Comparing a schema with itself can fail in two ways.  A number that is none
differs from itself, and of two properties with one name only the first is
found.  Where neither occurs, at any depth, a schema is the same as itself.
Lifting leaves such schemas, and stores only such objects.
-/

/-- The value is the same as itself. -/
def Json.Comparable (value : Json) : Prop :=
  value.same value = true

theorem Json.comparable_text (characters : String) : (Json.text characters).Comparable := by
  simp only [Comparable, same, beq_self_eq_true]

theorem Json.comparable_integer (number : Int) : (Json.integer number).Comparable := by
  simp only [Comparable, same, beq_self_eq_true]

theorem Json.sameItems_self {items : List Json} (each : ∀ item ∈ items, item.Comparable) :
    sameItems items items = true := by
  induction items with
  | nil => rw [sameItems]
  | cons item rest inductionHypothesis =>
    rcases List.forall_mem_cons.mp each with ⟨first, others⟩
    have own : item.same item = true := first
    rw [sameItems, own, inductionHypothesis others, Bool.and_self]

theorem sameOptional_self {α : Type} {same : α → α → Bool} {value? : Option α}
    (own : ∀ value ∈ value?, same value value = true) : sameOptional same value? value? = true := by
  cases value? with
  | none => rfl
  | some value => exact own value rfl

namespace Facets

/-- The values that are shown. -/
def values (facets : Facets) : List Json :=
  facets.fallback.toList ++ facets.examples ++ facets.choices.getD []

def bounds (facets : Facets) : List Float :=
  facets.minimum.toList ++ facets.maximum.toList ++ facets.exclusiveMinimum.toList ++
    facets.exclusiveMaximum.toList

/-- Everything that is shown is the same as itself. -/
structure Comparable (facets : Facets) : Prop where
  values : ∀ value ∈ facets.values, value.Comparable
  bounds : ∀ bound ∈ facets.bounds, (bound == bound) = true

variable {facets : Facets}

theorem Comparable.same_self (comparable : facets.Comparable) : facets.same facets = true := by
  rcases comparable with ⟨values, bounds⟩
  simp only [Facets.values, Facets.bounds, List.mem_append, Option.mem_toList, or_imp, forall_and]
    at values bounds
  rcases values with ⟨⟨fallback, examples⟩, choices⟩
  rcases bounds with ⟨⟨⟨minimum, maximum⟩, exclusiveMinimum⟩, exclusiveMaximum⟩
  have sameFallback : sameOptional Json.same facets.fallback facets.fallback = true :=
    sameOptional_self fallback
  have sameChoices : sameOptional Json.sameItems facets.choices facets.choices = true := by
    apply sameOptional_self
    intro allowed given
    rw [given, Option.getD_some] at choices
    exact Json.sameItems_self choices
  have sameBound : ∀ bound? : Option Float, (∀ bound ∈ bound?, (bound == bound) = true) →
      sameOptional (fun first second => first == second) bound? bound? = true :=
    fun _ own => sameOptional_self own
  simp only [same, beq_self_eq_true, sameFallback, Json.sameItems_self examples, sameChoices,
    sameBound _ minimum, sameBound _ maximum, sameBound _ exclusiveMinimum,
    sameBound _ exclusiveMaximum, Bool.and_self]

/-- Facets that show no bounds. -/
theorem Comparable.of_values (none : facets.bounds = [])
    (values : ∀ value ∈ facets.values, value.Comparable) : facets.Comparable :=
  ⟨values, none ▸ List.forall_mem_nil _⟩

end Facets

/-- What the object itself shows is the same as itself, and no two properties share a name. -/
structure SchemaObject.Comparable (object : SchemaObject) : Prop where
  facets : object.toFacets.Comparable
  names : (Entries.names object.properties).Nodup

namespace Schema

theorem sameItems_self {items : Option Schema} (own : ∀ schema ∈ items, schema.same schema = true) :
    sameItems items items = true := by
  cases items with
  | none => rw [sameItems]
  | some schema =>
    rw [sameItems]
    exact own schema rfl

theorem sameMembers_self {members : List Schema}
    (own : ∀ schema ∈ members, schema.same schema = true) : sameMembers members members = true := by
  induction members with
  | nil => rw [sameMembers]
  | cons schema rest inductionHypothesis =>
    rcases List.forall_mem_cons.mp own with ⟨first, others⟩
    rw [sameMembers, first, inductionHypothesis others, Bool.and_self]

/-- Properties are found again among all properties with different names. -/
theorem sameProperties_of_subset {some all : Entries Schema} (distinct : all.names.Nodup)
    (subset : some ⊆ all) (own : ∀ property ∈ some, property.2.same property.2 = true) :
    sameProperties some all = true := by
  induction some with
  | nil => rw [sameProperties]
  | cons property rest inductionHypothesis =>
    rcases property with ⟨name, schema⟩
    rcases List.forall_mem_cons.mp own with ⟨first, others⟩
    rcases List.cons_subset.mp subset with ⟨member, further⟩
    have found : Entries.get? all name = .some schema := Entries.get?_of_mem distinct member
    simp only [sameProperties, found, inductionHypothesis further others, Bool.and_true]
    exact first

theorem sameAdditional_self {object : SchemaObject}
    (own : ∀ schema ∈ object.further?, schema.same schema = true) :
    sameAdditional object.additional object.additional = true := by
  unfold SchemaObject.further? at own
  cases given : object.additional with
  | none => rw [sameAdditional]
  | some additional =>
    cases additional with
    | allowed flag => rw [sameAdditional, beq_self_eq_true]
    | schema schema =>
      rw [given] at own
      rw [sameAdditional]
      exact own schema rfl

end Schema

theorem SchemaObject.Comparable.same_self {object : SchemaObject} (comparable : object.Comparable)
    (parts : ∀ part ∈ object.parts, part.same part = true) : object.same object = true := by
  simp only [SchemaObject.parts, List.mem_append, List.mem_map, Option.mem_toList] at parts
  rw [SchemaObject.same_iff]
  refine ⟨comparable.facets.same_self, ?_, rfl, ?_, ?_, ?_, ?_, ?_⟩
  · exact Schema.sameItems_self fun schema member =>
      parts schema (.inl (.inl (.inl (.inl (.inr member)))))
  · exact Schema.sameProperties_of_subset comparable.names (List.Subset.refl _)
      fun property member => parts _ (.inl (.inl (.inl (.inl (.inl ⟨property, member, rfl⟩)))))
  · exact Schema.sameAdditional_self fun schema member =>
      parts schema (.inl (.inl (.inl (.inr member))))
  · exact Schema.sameMembers_self fun schema member => parts schema (.inl (.inl (.inr member)))
  · exact Schema.sameMembers_self fun schema member => parts schema (.inl (.inr member))
  · exact Schema.sameMembers_self fun schema member => parts schema (.inr member)

/-! ## Lifting -/

theorem SchemaObject.Comparable.lifted {object : SchemaObject} (comparable : object.Comparable)
    (name : String) : (object.lifted name).Comparable where
  facets := comparable.facets
  names := by
    have kept : Entries.names (object.lifted name).properties = Entries.names object.properties := by
      simp only [SchemaObject.lifted, Entries.names, List.map_map]
      rfl
    rw [kept]
    exact comparable.names

theorem SchemaObject.lifted_same_self {object : SchemaObject} (comparable : object.Comparable)
    {name : String} (parts : ∀ placed ∈ object.placedParts name,
      (placed.2.lifted placed.1).same (placed.2.lifted placed.1) = true) :
    (object.lifted name).same (object.lifted name) = true := by
  apply (comparable.lifted name).same_self
  intro part member
  rw [SchemaObject.parts_lifted] at member
  rcases List.mem_map.mp member with ⟨placed, listed, rfl⟩
  exact parts placed listed

namespace Schema

variable {schema : Schema}

/-- Where everything in a schema is comparable, what lifting leaves is the same as itself. -/
theorem lifted_same_self (comparable : schema.Everywhere SchemaObject.Comparable) (name : String) :
    (schema.lifted name).same (schema.lifted name) = true := by
  induction schema generalizing name with
  | ref target => exact absurd comparable not_everywhere_ref
  | inline object inductionHypothesis =>
    rcases everywhere_inline.mp comparable with ⟨own, inside⟩
    rw [lifted_inline]
    split
    · rw [same, beq_self_eq_true]
    · rw [same]
      apply SchemaObject.lifted_same_self own
      intro placed listed
      have member := SchemaObject.mem_parts_of_mem_placedParts listed
      exact inductionHypothesis placed.2 member (inside placed.2 member) placed.1

/-- So is every object that is stored on the way. -/
theorem registrations_same_self (comparable : schema.Everywhere SchemaObject.Comparable)
    (name : String) : ∀ entry ∈ schema.registrations name, entry.2.same entry.2 = true := by
  induction schema generalizing name with
  | ref target => exact absurd comparable not_everywhere_ref
  | inline object inductionHypothesis =>
    rcases everywhere_inline.mp comparable with ⟨own, inside⟩
    intro entry member
    rw [registrations_inline, List.mem_append] at member
    rcases member with deeper | itself
    · rcases List.mem_flatMap.mp deeper with ⟨placed, listed, registered⟩
      have part := SchemaObject.mem_parts_of_mem_placedParts listed
      exact inductionHypothesis placed.2 part (inside placed.2 part) placed.1 entry registered
    · split at itself
      · rw [List.mem_singleton.mp itself]
        apply SchemaObject.lifted_same_self own
        intro placed listed
        have part := SchemaObject.mem_parts_of_mem_placedParts listed
        exact lifted_same_self (inside placed.2 part) placed.1
      · cases itself

end Schema
end RouteDocs
