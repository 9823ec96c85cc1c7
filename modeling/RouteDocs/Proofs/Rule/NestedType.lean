import RouteDocs.Proofs.Rule.Reading
import RouteDocs.Proofs.Rule.Shorthand

namespace RouteDocs

/-!
# Nested objects with a type of their own

An object without `type` is a nested object: its keys are its fields.  A reserved
key may give it a shorthand as a type of its own.  The flags, the fallback and the
notes of the shorthand are taken over, the constraints are not.  So a nested
object is what its shorthand says, with the fields put into it, exactly when the
shorthand sets no constraint (`Rule.nested_type_is_honoured_iff`).
-/

namespace Rule

/-- A shorthand for an object declares no fields. -/
theorem exists_limits_of_object {shorthand : String} {own : Rule}
    (head : (Shorthand.parts shorthand).head? = some "object".toList)
    (accepted : ofShorthand shorthand = .ok own) :
    ∃ limits, own.kind = .object none limits := by
  rcases List.head?_eq_some_iff.mp head with ⟨others, parts⟩
  have object : RuleTag.ofName? "object" = some .object := by decide
  rw [ofShorthand_of_parts parts (by decide)] at accepted
  rcases ofHead_eq_ok (by decide) accepted with ⟨parts, rules, found, nested, assembled⟩
  simp only [RuleParts.ofOptions, object] at found
  rcases Except.eq_ok_of_map_eq_ok found with ⟨named, declared, rfl⟩
  have noFields : named = none := Options.fields_eq_none (fun _ scalar => scalar)
    (fun name value _ option =>
      Shorthand.isScalar_of_mem_options (Entries.mem_of_get?_eq_some option)) declared
  subst noFields
  cases nested
  have kind := (Rule.assemble_eq_ok assembled).1
  simp only [RuleKind.assemble, object] at kind
  rcases Except.eq_ok_of_map_eq_ok kind with ⟨limits, -, same⟩
  exact ⟨limits, same.symm⟩

/-- What a nested object takes over from the shorthand that types it. -/
theorem read_of_nestedType {entries : Entries Json} {shorthand : String} {own : Rule}
    {fields : Entries Rule} {notes : Notes} (untyped : entries.get? "type" = none)
    (given : entries.get? nestedTypeKey = some (.text shorthand))
    (accepted : ofShorthand shorthand = .ok own) (declared : FieldsOf entries fields)
    (noted : Notes.ofEntries entries = .ok notes) :
    Rule.read (.object entries) = .ok { own with
      kind := .object (some fields) {}
      notes := if notes.isEmpty then own.notes else notes } := by
  have ofType : ofNestedType entries = .ok { own with kind := .object none {} } := by
    simp only [ofNestedType, given, accepted]
    rfl
  exact (read_untyped_iff untyped).mpr ⟨_, fields, notes, ofType, declared, noted, rfl⟩

/-- A nested object that a shorthand for an object types is what the shorthand stands
for, with the fields put into it and with its own notes where it has any, exactly when
the shorthand sets no constraint.  In every case it has the flags and the fallback of
the shorthand, and no constraints. -/
theorem nested_type_is_honoured_iff {entries : Entries Json} {shorthand : String} {own : Rule}
    {fields : Entries Rule} {notes : Notes} (untyped : entries.get? "type" = none)
    (given : entries.get? nestedTypeKey = some (.text shorthand))
    (head : (Shorthand.parts shorthand).head? = some "object".toList)
    (accepted : ofShorthand shorthand = .ok own) (declared : FieldsOf entries fields)
    (noted : Notes.ofEntries entries = .ok notes) :
    ∃ limits, own.kind = .object none limits ∧
      (Rule.read (.object entries) = .ok { own with
          kind := .object (some fields) limits
          notes := if notes.isEmpty then own.notes else notes } ↔ limits = {}) ∧
      Rule.read (.object entries) = .ok { own with
        kind := .object (some fields) {}
        notes := if notes.isEmpty then own.notes else notes } := by
  rcases exists_limits_of_object head accepted with ⟨limits, object⟩
  have read := read_of_nestedType untyped given accepted declared noted
  refine ⟨limits, object, ?_, read⟩
  rw [read]
  constructor
  · intro same
    cases same
    rfl
  · rintro rfl
    rfl

/-- A nested object that may be missing and has a fallback, with notes of its own. -/
theorem nested_type_is_honoured_iff_person :
    Rule.read (.object
        [("name", .text "string"), ("$$type", .text " object | nullable | default:1"),
          ("$$oa", .object [("summary", .text "Who it is")]), ("tags", .text "string[]")]) =
      .ok {
        kind := .object (some [("name", .text), ("tags", .array .text)]) {}
        nullable := true
        fallback := some (.integer 1)
        notes := { summary := some "Who it is" } } := by
  have accepted : ofShorthand " object | nullable | default:1" = .ok {
      kind := .object none {}
      nullable := true
      fallback := some (.integer 1) } := rfl
  have declared : FieldsOf
      [("name", .text "string"), ("$$type", .text " object | nullable | default:1"),
        ("$$oa", .object [("summary", .text "Who it is")]), ("tags", .text "string[]")]
      [("name", .text), ("tags", .array .text)] :=
    .cons ⟨rfl, by rw [Rule.read]; rfl⟩ (.cons ⟨rfl, by rw [Rule.read]; rfl⟩ .nil)
  rcases nested_type_is_honoured_iff (by rfl) (by rfl) (by decide) accepted declared (by rfl) with
    ⟨limits, object, honoured, -⟩
  cases object
  exact honoured.mpr rfl

/-- The shorthand of a nested object may refuse undeclared fields, and the object
accepts them. -/
theorem strictness_of_nested_type_is_lost :
    ofShorthand "object|strict" = .ok { kind := .object none { strict := true } } ∧
    Rule.read (.object [("name", .text "string"), ("$$type", .text "object|strict")]) =
      .ok (.object [("name", .text)]) ∧
    Rule.read (.object [("name", .text "string"), ("$$type", .text "object|strict")]) ≠
      .ok { kind := .object (some [("name", .text)]) { strict := true } } := by
  have strict : ofShorthand "object|strict" = .ok { kind := .object none { strict := true } } := rfl
  have declared : FieldsOf [("name", .text "string"), ("$$type", .text "object|strict")]
      [("name", .text)] := .cons ⟨rfl, by rw [Rule.read]; rfl⟩ .nil
  have read := read_of_nestedType rfl rfl strict declared rfl
  refine ⟨strict, read, ?_⟩
  rw [read]
  intro same
  cases same

end Rule
end RouteDocs
