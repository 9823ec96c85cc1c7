import RouteDocs.Entries
import RouteDocs.Rule.Basic

namespace RouteDocs

/-!
# The rules inside a rule

A rule holds further rules in two ways.  The items of a list, the values of a
record, the places of a tuple and the alternatives stay among the same fields
as the rule itself; they are its `inner` rules.  The declared `fields` of an
object are fields of their own: what a rule inside them says about a sibling is
about these.

The rule for the names of a record is not among either.  Names are texts
anyway, so this rule is never converted.  It is read like any other rule, though,
and what holds of all rules that are read holds of it too: the `nested` rules
are the parts with this one among them.
-/

namespace RuleKind

/-- The rules inside a kind that stay among the same fields. -/
def inner (kind : RuleKind) : List Rule :=
  match kind with
  | .array items _ => items.toList
  | .record _ value => value.toList
  | .tuple members => members
  | .multi members => members
  | _ => []

/-- The declared fields of an object; none for every other kind. -/
def fields (kind : RuleKind) : Entries Rule :=
  match kind with
  | .object declared _ => declared.getD []
  | _ => []

/-- The rules directly inside a kind. -/
def parts (kind : RuleKind) : List Rule :=
  kind.inner ++ kind.fields.values

/-- All rules directly inside a kind, in the order in which they are read. -/
def nested (kind : RuleKind) : List Rule :=
  match kind with
  | .record key value => key.toList ++ value.toList
  | _ => kind.parts

theorem mem_nested_of_mem_parts {kind : RuleKind} {part : Rule} (member : part ∈ kind.parts) :
    part ∈ kind.nested := by
  cases kind with
  | record key value =>
    have ofValue : part ∈ value.toList ++ [] := member
    rw [List.append_nil] at ofValue
    exact List.mem_append_right _ ofValue
  | _ => exact member

theorem nested_multi (members : List Rule) : (RuleKind.multi members).nested = members :=
  List.append_nil members

theorem mem_parts_of_multi {kind : RuleKind} {members : List Rule} {member : Rule}
    (choice : kind = .multi members) (listed : member ∈ members) : member ∈ kind.parts := by
  subst choice
  exact List.mem_append_left _ listed

theorem sizeOf_lt_of_mem_inner {kind : RuleKind} {part : Rule} (member : part ∈ kind.inner) :
    sizeOf part < sizeOf kind := by
  cases kind with
  | array items limits =>
    cases Option.mem_toList.mp member
    simp only [RuleKind.array.sizeOf_spec, Option.some.sizeOf_spec]
    omega
  | record key value =>
    cases Option.mem_toList.mp member
    simp only [RuleKind.record.sizeOf_spec, Option.some.sizeOf_spec]
    omega
  | tuple members =>
    have smaller := List.sizeOf_lt_of_mem (show part ∈ members from member)
    simp only [RuleKind.tuple.sizeOf_spec]
    omega
  | multi members =>
    have smaller := List.sizeOf_lt_of_mem (show part ∈ members from member)
    simp only [RuleKind.multi.sizeOf_spec]
    omega
  | _ => cases member

theorem sizeOf_fields_lt {kind : RuleKind} (some : kind.fields ≠ []) :
    sizeOf kind.fields < sizeOf kind := by
  cases kind with
  | object declared limits =>
    cases declared with
    | none => exact absurd rfl some
    | some declared =>
      simp only [fields, Option.getD_some, RuleKind.object.sizeOf_spec, Option.some.sizeOf_spec]
      omega
  | _ => exact absurd rfl some

theorem sizeOf_lt_of_mem_parts {kind : RuleKind} {part : Rule} (member : part ∈ kind.parts) :
    sizeOf part < sizeOf kind := by
  rcases List.mem_append.mp member with inside | declared
  · exact sizeOf_lt_of_mem_inner inside
  · rcases List.mem_map.mp declared with ⟨⟨name, rule⟩, listed, rfl⟩
    have whole := sizeOf_fields_lt (List.ne_nil_of_mem listed)
    have field := List.sizeOf_lt_of_mem listed
    simp only [Prod.mk.sizeOf_spec] at field ⊢
    omega

end RuleKind

namespace Rule

/-- Induction over a rule, through the rules directly inside it. -/
theorem inductionOnParts {motive : Rule → Prop}
    (step : ∀ rule : Rule, (∀ part ∈ rule.kind.parts, motive part) → motive rule)
    (rule : Rule) : motive rule :=
  step rule fun part _ => inductionOnParts step part
termination_by sizeOf rule
decreasing_by
  rename_i member
  rcases rule with ⟨kind, optional, nullable, fallback, notes⟩
  have smaller : sizeOf part < sizeOf kind := RuleKind.sizeOf_lt_of_mem_parts member
  simp only [Rule.mk.sizeOf_spec]
  omega

/-- What holds of a rule and of every rule inside it. -/
inductive Throughout (condition : Rule → Prop) : Rule → Prop where
  | intro {rule : Rule} (own : condition rule)
      (parts : ∀ part ∈ rule.kind.parts, Throughout condition part) : Throughout condition rule

namespace Throughout

variable {condition : Rule → Prop} {rule : Rule}

theorem own (holds : rule.Throughout condition) : condition rule := by
  cases holds with
  | intro own parts => exact own

theorem inner (holds : rule.Throughout condition) :
    ∀ part ∈ rule.kind.inner, part.Throughout condition := by
  intro part inside
  cases holds with
  | intro own parts => exact parts part (List.mem_append_left _ inside)

theorem fields (holds : rule.Throughout condition) :
    ∀ field ∈ rule.kind.fields, field.2.Throughout condition := by
  intro field declared
  cases holds with
  | intro own parts =>
    exact parts field.2 (List.mem_append_right _ (List.mem_map_of_mem declared))

end Throughout

/-- What holds of a rule and of every rule inside it, those for the names of records
among them. -/
inductive Everywhere (condition : Rule → Prop) : Rule → Prop where
  | intro {rule : Rule} (own : condition rule)
      (inside : ∀ part ∈ rule.kind.nested, Everywhere condition part) : Everywhere condition rule

theorem Everywhere.own {condition : Rule → Prop} {rule : Rule}
    (holds : rule.Everywhere condition) : condition rule := by
  cases holds with
  | intro own inside => exact own

theorem Everywhere.imp {condition other : Rule → Prop} (weaker : ∀ rule, condition rule → other rule)
    {rule : Rule} (holds : rule.Everywhere condition) : rule.Everywhere other := by
  induction holds with
  | intro own inside inductionHypothesis => exact .intro (weaker _ own) inductionHypothesis

theorem Everywhere.throughout {condition : Rule → Prop} {rule : Rule}
    (holds : rule.Everywhere condition) : rule.Throughout condition := by
  induction holds with
  | intro own inside inductionHypothesis =>
    exact .intro own fun part member =>
      inductionHypothesis part (RuleKind.mem_nested_of_mem_parts member)

/-- What holds of the names of the fields declared together, for every object
inside a rule and for the rule itself. -/
inductive FieldNames (condition : List String → Prop) : Rule → Prop where
  | intro {rule : Rule} (names : condition rule.kind.fields.names)
      (parts : ∀ part ∈ rule.kind.parts, FieldNames condition part) : FieldNames condition rule

end Rule

/-- What holds of the names of fields and of those of the objects inside them. -/
structure Entries.FieldNames (condition : List String → Prop) (fields : Entries Rule) : Prop where
  names : condition fields.names
  parts : ∀ field ∈ fields, field.2.FieldNames condition

namespace Rule

theorem throughout_of_forall {condition : Rule → Prop} (all : ∀ rule, condition rule)
    (rule : Rule) : rule.Throughout condition := by
  induction rule using inductionOnParts with
  | step rule inductionHypothesis => exact .intro (all rule) inductionHypothesis

theorem FieldNames.throughout {condition : List String → Prop} {rule : Rule}
    (holds : rule.FieldNames condition) :
    rule.Throughout fun inside => condition inside.kind.fields.names := by
  induction holds with
  | intro names parts inductionHypothesis => exact .intro names inductionHypothesis

theorem fieldNames_of_forall {condition : List String → Prop} (all : ∀ names, condition names)
    (rule : Rule) : rule.FieldNames condition := by
  induction rule using inductionOnParts with
  | step rule inductionHypothesis => exact .intro (all _) inductionHypothesis

/-- Rules without parts declare no fields. -/
theorem fieldNames_of_parts_nil {condition : List String → Prop} (empty : condition [])
    {rule : Rule} (none : rule.kind.parts = []) : rule.FieldNames condition := by
  have noFields : rule.kind.fields = [] := List.map_eq_nil_iff.mp (List.append_eq_nil_iff.mp none).2
  refine .intro (noFields ▸ empty) ?_
  rw [none]
  exact List.forall_mem_nil _

end Rule

theorem Rule.fieldNames_object {condition : List String → Prop} {fields : Entries Rule}
    (named : fields.FieldNames condition) : (Rule.object fields).FieldNames condition := by
  apply FieldNames.intro named.names
  intro part member
  rcases List.mem_map.mp member with ⟨field, declared, rfl⟩
  exact named.parts field declared

theorem Entries.fieldNames_of_forall {condition : List String → Prop}
    (all : ∀ names, condition names) (fields : Entries Rule) : fields.FieldNames condition where
  names := all _
  parts field _ := Rule.fieldNames_of_forall all field.2

end RouteDocs
