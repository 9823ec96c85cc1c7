import RouteDocs.Schema.Same

namespace RouteDocs
namespace SchemaObject

/-!
# What the same schemas agree in

The comparison of two inline schemas is one long conjunction.  It is opened
here once, and what other proofs need of it is read off.
-/

theorem same_iff {left right : SchemaObject} :
    left.same right = true ↔
      left.toFacets.same right.toFacets = true ∧
      Schema.sameItems left.items right.items = true ∧
      left.properties.length = right.properties.length ∧
      Schema.sameProperties left.properties right.properties = true ∧
      Schema.sameAdditional left.additional right.additional = true ∧
      Schema.sameMembers left.oneOf right.oneOf = true ∧
      Schema.sameMembers left.anyOf right.anyOf = true ∧
      Schema.sameMembers left.allOf right.allOf = true := by
  rcases left with ⟨facets, items, properties, additional, oneOf, anyOf, allOf⟩
  unfold same
  simp only [Bool.and_eq_true, beq_iff_eq, and_assoc]

theorem length_properties_of_same {left right : SchemaObject} (same : left.same right = true) :
    left.properties.length = right.properties.length :=
  (same_iff.mp same).2.2.1

theorem sameProperties_of_same {left right : SchemaObject} (same : left.same right = true) :
    Schema.sameProperties left.properties right.properties = true :=
  (same_iff.mp same).2.2.2.1

theorem type_of_same {left right : SchemaObject} (same : left.same right = true) :
    left.type = right.type := by
  have facets := (same_iff.mp same).1
  simp only [Facets.same, Bool.and_eq_true, beq_iff_eq, and_assoc] at facets
  exact facets.1

end SchemaObject

/-! ## Types alone -/

theorem Facets.same_of_type (type : Option SchemaType) :
    Facets.same { type := type } { type := type } = true := by
  simp only [Facets.same, beq_self_eq_true, sameOptional, Json.sameItems, Bool.and_self]

theorem Schema.same_typed (type : SchemaType) : (typed type).same (.typed type) = true := by
  rw [typed, same, SchemaObject.same_iff]
  refine ⟨Facets.same_of_type _, ?_, rfl, ?_, ?_, ?_, ?_, ?_⟩ <;>
    simp only [SchemaObject.typed, sameItems, sameProperties, sameAdditional, sameMembers]

end RouteDocs
