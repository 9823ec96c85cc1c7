import RouteDocs.Proofs.Convert.Everywhere

namespace RouteDocs

/-!
# Regular schemas

A schema object could be filled in any way; a conversion fills it in few.  It
writes a constraint only beside a type, a list of alternatives and of allowed
values apart, and it never writes both an inclusive and an exclusive bound on
one side.  An object of which both is true is regular.  The two lines of the
format spell a type and a bound differently, and these are the two facts by
which the spellings agree.
-/

namespace SchemaObject

/-- What an object says about its value without a type: notes, a fallback and
examples, and as constraints only allowed values and alternatives. -/
def untyped (object : SchemaObject) : SchemaObject where
  description := object.description
  summary := object.summary
  deprecated := object.deprecated
  nullable := object.nullable
  fallback := object.fallback
  examples := object.examples
  choices := object.choices
  oneOf := object.oneOf

structure Regular (object : SchemaObject) : Prop where
  /-- Without a type there is nothing more than can be said without one. -/
  untyped : object.type = none → object = object.untyped
  /-- The lower bound is inclusive or exclusive. -/
  lower : object.minimum = none ∨ object.exclusiveMinimum = none
  upper : object.maximum = none ∨ object.exclusiveMaximum = none
  /-- All alternatives are of one kind. -/
  noAnyOf : object.anyOf = []

/-- A typed object without bounds is regular. -/
theorem regular_of_type {object : SchemaObject} (typed : object.type ≠ none)
    (lower : object.minimum = none) (upper : object.maximum = none)
    (noAnyOf : object.anyOf = []) : object.Regular where
  untyped none := absurd none typed
  lower := Or.inl lower
  upper := Or.inl upper
  noAnyOf := noAnyOf

end SchemaObject

theorem NumberLimits.regular_schema (limits : NumberLimits) : limits.schema.Regular where
  untyped impossible := nomatch impossible
  lower := by
    unfold schema
    cases limits.excludesBelow
    · exact Or.inr rfl
    · exact Or.inl rfl
  upper := by
    unfold schema
    cases limits.excludesAbove
    · exact Or.inr rfl
    · exact Or.inl rfl
  noAnyOf := rfl

namespace SchemaObject

theorem regular_date : Regular .date where
  untyped _ := rfl
  lower := Or.inl rfl
  upper := Or.inl rfl
  noAnyOf := rfl

theorem regular_oneOfThese (members : List Schema) : (oneOfThese members).Regular where
  untyped _ := rfl
  lower := Or.inl rfl
  upper := Or.inl rfl
  noAnyOf := rfl

theorem regular_onlyChoices (values : List Json) : Regular { choices := some values } where
  untyped _ := rfl
  lower := Or.inl rfl
  upper := Or.inl rfl
  noAnyOf := rfl

/-- A constant without a type, the missing value, is shown as an example only. -/
theorem regular_constant (value : Option Json) (strict : Bool) :
    (constant value strict).Regular := by
  refine constant_cases ?_ (fun constant => ?_) (fun text => ?_) value strict
  · exact regular_of_type (Option.some_ne_none _) rfl rfl rfl
  · refine ⟨fun none => ?_, Or.inl rfl, Or.inl rfl, rfl⟩
    change typeOf constant = .none at none
    rw [none]
    rfl
  · exact regular_of_type (Option.some_ne_none _) rfl rfl rfl

/-- Every mapper that makes a schema by itself makes a regular one. -/
theorem regular_plain : PlainCondition Regular where
  any := ⟨fun _ => rfl, Or.inl rfl, Or.inl rfl, rfl⟩
  typed _ := regular_of_type (Option.some_ne_none _) rfl rfl rfl
  number := NumberLimits.regular_schema
  text _ := regular_of_type (Option.some_ne_none _) rfl rfl rfl
  record := regular_of_type (Option.some_ne_none _) rfl rfl rfl
  formatted _ _ := regular_of_type (Option.some_ne_none _) rfl rfl rfl
  patterned _ _ := regular_of_type (Option.some_ne_none _) rfl rfl rfl
  uuid _ := regular_of_type (Option.some_ne_none _) rfl rfl rfl
  currency _ := regular_of_type (Option.some_ne_none _) rfl rfl rfl
  date := regular_date

theorem regular_shapes : ShapeCondition (fun _ => True) Regular where
  fewer _ _ _ _ := trivial
  plain _ _ object made := by
    rcases MapperTable.parts_plainSchema made with none | rfl
    · exact Schema.everywhere_of_parts_nil (regular_plain.of_plainSchema made) none
    · exact date_everywhere regular_date (regular_of_type (Option.some_ne_none _) rfl rfl rfl)
        (regular_of_type (Option.some_ne_none _) rfl rfl rfl)
  list _ _ := regular_of_type (Option.some_ne_none _) rfl rfl rfl
  withChoices object values regular := by
    refine ⟨fun none => ?_, regular.lower, regular.upper, regular.noAnyOf⟩
    exact congrArg (fun found : SchemaObject => { found with choices := some values })
      (regular.untyped none)
  onlyChoices := regular_onlyChoices
  object _ _ _ := regular_of_type (Option.some_ne_none _) rfl rfl rfl
  record _ := regular_of_type (Option.some_ne_none _) rfl rfl rfl
  tuple _ _ := regular_of_type (Option.some_ne_none _) rfl rfl rfl
  oneOfThese := regular_oneOfThese
  constant := regular_constant
  finish object description summary deprecated nullable fallback regular := by
    refine ⟨fun none => ?_, regular.lower, regular.upper, regular.noAnyOf⟩
    exact congrArg (fun found : SchemaObject =>
      { found with
        description := description
        summary := summary
        deprecated := deprecated
        nullable := nullable
        fallback := fallback }) (regular.untyped none)

end SchemaObject
end RouteDocs
