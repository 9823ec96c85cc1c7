import RouteDocs.Convert.Shape

namespace RouteDocs

/-!
# Rules become schemas

The conversion of a rule goes down into the rules inside it.  A rule that asks
for equality with another field is converted like that field, which may in
turn ask for equality with a third one.  The scope remembers the fields it is
already inside of, so a circle of such rules ends at the first field that
would be entered again.

The conversion comes to an end although a sibling may be larger than the rule
that refers to it: entering an object leaves its enclosing scope behind and
sets up a smaller one, entering a sibling uses up one field of the scope, and
every other step goes to a smaller rule.
-/

namespace Scope

def ofFields (fields : Entries Rule) : Scope where
  siblings := fields

def unresolved (scope : Scope) : Entries Rule :=
  scope.siblings.filter fun entry => !scope.resolving.contains entry.1

/-- The scope inside the conversion of one of the fields. -/
def enter (scope : Scope) (field : String) : Scope :=
  { scope with resolving := scope.resolving ++ [field] }

/-- The rule of a field that can still be entered. -/
def reachable? (scope : Scope) (field : String) : Option Rule :=
  if scope.resolving.contains field then none else scope.siblings.get? field

theorem sizeOf_lt_of_get?_eq_some {entries : Entries Rule} {name : String} {rule : Rule}
    (found : entries.get? name = some rule) : sizeOf rule < sizeOf entries := by
  have smaller := List.sizeOf_lt_of_mem (Entries.mem_of_get?_eq_some found)
  simp only [Prod.mk.sizeOf_spec] at smaller
  omega

theorem get?_of_reachable?_eq_some {scope : Scope} {field : String} {rule : Rule}
    (reached : scope.reachable? field = some rule) :
    scope.resolving.contains field = false ∧ scope.siblings.get? field = some rule := by
  unfold reachable? at reached
  split at reached
  · cases reached
  · next fresh => exact ⟨Bool.eq_false_iff.mpr fresh, reached⟩

theorem length_unresolved_enter_lt {scope : Scope} {field : String} {rule : Rule}
    (reached : scope.reachable? field = some rule) :
    (scope.enter field).unresolved.length < scope.unresolved.length := by
  obtain ⟨fresh, found⟩ := get?_of_reachable?_eq_some reached
  have member := Entries.mem_of_get?_eq_some found
  have stillOpen : (field, rule) ∈ scope.unresolved :=
    List.mem_filter.mpr ⟨member, by simp only [fresh, Bool.not_false]⟩
  have narrower : (scope.enter field).unresolved =
      scope.unresolved.filter fun entry => !(entry.1 == field) := by
    simp only [unresolved, enter, List.filter_filter]
    congr 1
    funext entry
    simp only [List.contains_eq_mem, List.mem_append, List.mem_singleton]
    by_cases inside : entry.1 ∈ scope.resolving <;> by_cases same : entry.1 = field <;>
      simp [inside, same]
  rw [narrower]
  apply Nat.lt_of_le_of_ne (List.length_filter_le _ _)
  intro unchanged
  have all := List.length_filter_eq_length_iff.mp unchanged (field, rule) stillOpen
  simp at all

/-- What the conversion of a rule of the given size uses up: the larger of the
rule and the fields around it, then the fields that can still be entered, then
the rule itself. -/
noncomputable def remaining (scope : Scope) (size : Nat) : Nat × Nat × Nat :=
  (max size (sizeOf scope.siblings), scope.unresolved.length, size)

theorem remaining_part {scope : Scope} {part whole : Nat} (smaller : part < whole) :
    WellFoundedRelation.rel (scope.remaining part) (scope.remaining whole) := by
  unfold remaining
  have extent : max part (sizeOf scope.siblings) ≤ max whole (sizeOf scope.siblings) := by omega
  rcases Nat.lt_or_eq_of_le extent with less | equal
  · exact Prod.Lex.left _ _ less
  · rw [equal]
    exact Prod.Lex.right _ (Prod.Lex.right _ smaller)

/-- Entering a field uses something up, however large its rule is. -/
theorem remaining_enter {scope : Scope} {field : String} {sibling : Rule} {whole : Nat}
    (reached : scope.reachable? field = some sibling) :
    WellFoundedRelation.rel ((scope.enter field).remaining (sizeOf sibling))
      (scope.remaining whole) := by
  have smaller := sizeOf_lt_of_get?_eq_some (get?_of_reachable?_eq_some reached).2
  have fewer := length_unresolved_enter_lt reached
  unfold remaining
  have extent : max (sizeOf sibling) (sizeOf (scope.enter field).siblings) ≤
      max whole (sizeOf scope.siblings) := by
    simp only [enter]
    omega
  rcases Nat.lt_or_eq_of_le extent with less | equal
  · exact Prod.Lex.left _ _ less
  · rw [equal]
    exact Prod.Lex.right _ (Prod.Lex.left _ _ fewer)

/-- Going to the fields of an object uses something up, because they are
smaller than the object and leave the fields around it behind. -/
theorem remaining_ofFields {scope : Scope} {fields : Entries Rule} {whole : Nat}
    (smaller : sizeOf fields < whole) :
    WellFoundedRelation.rel ((ofFields fields).remaining (sizeOf fields))
      (scope.remaining whole) := by
  unfold remaining
  have extent : max (sizeOf fields) (sizeOf (ofFields fields).siblings) <
      max whole (sizeOf scope.siblings) := by
    simp only [ofFields]
    omega
  exact Prod.Lex.left _ _ extent

end Scope

/-- The schema of a rule with what every rule may say besides its kind: its
notes, filled from those of the enclosing rule, the missing value and the fallback. -/
def Rule.finish (rule : Rule) (defaults : Notes) (object : SchemaObject) : Fragment where
  schema :=
    let notes := rule.notes.inherit defaults
    .inline
      { object with
        description := notes.description.or object.description
        summary := notes.summary.or object.summary
        deprecated := notes.deprecated.or object.deprecated
        nullable := rule.nullable || object.nullable
        fallback := rule.fallback.or object.fallback }
  optional := rule.isOptional

namespace MapperTable

mutual

/-- Convert a rule.  There is no result when the rule does not appear in the
document. -/
def convert (table : MapperTable) (rule : Rule) (defaults : Notes) (scope : Scope) :
    Except Fault (Option Fragment) :=
  match rule with
  | { kind, optional, nullable, fallback, notes } =>
    match table.mapperFor kind.tag with
    | .error fault => .error fault
    | .ok (.own mapper) =>
      (convertKind table mapper kind scope).map fun object? =>
        object?.map (Rule.finish { kind, optional, nullable, fallback, notes } defaults)
    | .ok (.caller map) =>
      (map { kind, optional, nullable, fallback, notes } scope).map fun object? =>
        object?.map (Rule.finish { kind, optional, nullable, fallback, notes } defaults)
termination_by scope.remaining (sizeOf rule)
decreasing_by
  all_goals exact Scope.remaining_part (by simp only [Rule.mk.sizeOf_spec]; omega)

def convertKind (table : MapperTable) (mapper : Mapper) (kind : RuleKind) (scope : Scope) :
    Except Fault (Option SchemaObject) :=
  match mapper, kind with
  | .array, .array none limits => .ok (some (limits.schema none))
  | .array, .array (some items) limits =>
    (convert table items {} scope).map fun fragment? =>
      some (limits.schema (fragment?.map Fragment.schema))
  | .object, .object none limits => .ok (some (limits.schema []))
  | .object, .object (some fields) limits =>
    (convertEntries table fields (.ofFields fields)).map fun converted =>
      some (limits.schema converted)
  | .record, .record _ (some value) =>
    (convert table value {} scope).map fun fragment? =>
      some (.record (fragment?.map Fragment.schema))
  | .tuple, .tuple members =>
    (convertMembers table members scope).map fun schemas =>
      some (.tuple members.length schemas)
  | .multi, .multi members =>
    (convertMembers table members scope).map fun schemas =>
      if schemas.isEmpty then none else some (.oneOfThese schemas)
  | .equal, .equal value none strict => .ok (some (.constant value strict))
  | .equal, .equal value (some field) strict =>
    match _reached : scope.reachable? field with
    | none => .ok (some (.constant value strict))
    | some sibling =>
      (convert table sibling {} (scope.enter field)).map fun fragment? =>
        let found := fragment?.bind fun fragment => fragment.schema.object?
        some (found.getD (.constant value strict))
  | mapper, kind => .ok (mapper.plainSchema kind)
termination_by scope.remaining (sizeOf kind)
decreasing_by
  · exact Scope.remaining_part (by
      simp only [RuleKind.array.sizeOf_spec, Option.some.sizeOf_spec]
      omega)
  · exact Scope.remaining_ofFields (by
      simp only [RuleKind.object.sizeOf_spec, Option.some.sizeOf_spec]
      omega)
  · exact Scope.remaining_part (by
      simp only [RuleKind.record.sizeOf_spec, Option.some.sizeOf_spec]
      omega)
  · exact Scope.remaining_part (by simp only [RuleKind.tuple.sizeOf_spec]; omega)
  · exact Scope.remaining_part (by simp only [RuleKind.multi.sizeOf_spec]; omega)
  · exact Scope.remaining_enter _reached

def convertMembers (table : MapperTable) (members : List Rule) (scope : Scope) :
    Except Fault (List Schema) :=
  match members with
  | [] => .ok []
  | member :: rest =>
    match convert table member {} scope with
    | .error fault => .error fault
    | .ok fragment? =>
      (convertMembers table rest scope).map fun schemas =>
        match fragment? with
        | some fragment => fragment.schema :: schemas
        | none => schemas
termination_by scope.remaining (sizeOf members)
decreasing_by
  all_goals exact Scope.remaining_part (by simp only [List.cons.sizeOf_spec]; omega)

/-- The fields that appear in the document, each converted inside the scope. -/
def convertEntries (table : MapperTable) (fields : List (String × Rule)) (scope : Scope) :
    Except Fault (List (String × Fragment)) :=
  match fields with
  | [] => .ok []
  | (name, rule) :: rest =>
    match convert table rule {} scope with
    | .error fault => .error fault
    | .ok fragment? =>
      (convertEntries table rest scope).map fun converted =>
        match fragment? with
        | some fragment => (name, fragment) :: converted
        | none => converted
termination_by scope.remaining (sizeOf fields)
decreasing_by
  all_goals exact Scope.remaining_part (by
    simp only [List.cons.sizeOf_spec, Prod.mk.sizeOf_spec]
    omega)

end

def convertRule (table : MapperTable) (rule : Rule) : Except Fault (Option Fragment) :=
  table.convert rule {} {}

/-- Convert the fields of an object.  Each can refer to every other. -/
def convertFields (table : MapperTable) (fields : Entries Rule) :
    Except Fault (Entries Fragment) :=
  table.convertEntries fields (.ofFields fields)

end MapperTable
end RouteDocs
