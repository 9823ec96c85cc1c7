import RouteDocs.Convert.Basic
import RouteDocs.Proofs.Entries
import RouteDocs.Proofs.Rule.Parts

namespace RouteDocs

/-!
# Conversions inside conversions

The conversion of a rule asks for further conversions: of the rules inside it,
of the fields of an object, and of a sibling that it is equal to.  `Calls` says
which ones, each with the scope it is asked for in.  No conversion can go on
asking forever, although a sibling may be larger than the rule that refers to
it, and although siblings may refer to each other in circles.

`Chain` follows such calls inside one scope and notes the siblings that are
entered on the way.  The scope itself refuses to enter one of them again, so
the chain enters distinct fields and ends after at most as many as there are.
-/

/-- A rule and the scope in which it is converted. -/
structure Conversion where
  rule : Rule
  scope : Scope

namespace Conversion

/-- The conversions that a conversion asks for. -/
inductive Calls (outer : Conversion) : Conversion → Prop where
  /-- Items, values of a record, places and alternatives stay in the scope. -/
  | inner {part : Rule} (inside : part ∈ outer.rule.kind.inner) : Calls outer ⟨part, outer.scope⟩
  /-- The fields of an object have a scope of their own. -/
  | field {name : String} {rule : Rule} (declared : (name, rule) ∈ outer.rule.kind.fields) :
    Calls outer ⟨rule, .ofFields outer.rule.kind.fields⟩
  /-- A sibling is entered, unless it has been entered already. -/
  | sibling {value : Option Json} {name : String} {strict : Bool} {rule : Rule}
    (equal : outer.rule.kind = .equal value (some name) strict)
    (reached : outer.scope.reachable? name = some rule) :
    Calls outer ⟨rule, outer.scope.enter name⟩

/-- What a conversion uses up. -/
noncomputable def remaining (conversion : Conversion) : Nat × Nat × Nat :=
  conversion.scope.remaining (sizeOf conversion.rule)

theorem sizeOf_kind_lt (rule : Rule) : sizeOf rule.kind < sizeOf rule := by
  rcases rule with ⟨kind, optional, nullable, fallback, notes⟩
  simp only [Rule.mk.sizeOf_spec]
  omega

/-- Every conversion that is asked for has less to use up. -/
theorem Calls.remaining_lt {outer inner : Conversion} (called : outer.Calls inner) :
    WellFoundedRelation.rel inner.remaining outer.remaining := by
  rcases outer with ⟨rule, scope⟩
  have whole := sizeOf_kind_lt rule
  cases called with
  | inner inside =>
    have smaller := RuleKind.sizeOf_lt_of_mem_inner inside
    exact Scope.remaining_part (Nat.lt_trans smaller whole)
  | @field name part declared =>
    have fields : sizeOf rule.kind.fields < sizeOf rule.kind :=
      RuleKind.sizeOf_fields_lt (List.ne_nil_of_mem declared)
    have field : sizeOf (name, part) < sizeOf rule.kind.fields := List.sizeOf_lt_of_mem declared
    simp only [Prod.mk.sizeOf_spec] at field
    apply Prod.Lex.left
    change max (sizeOf part) (sizeOf rule.kind.fields) < max (sizeOf rule) (sizeOf scope.siblings)
    omega
  | sibling equal reached => exact Scope.remaining_enter reached

/-- No conversion goes on asking for further ones forever. -/
theorem wellFounded_calls : WellFounded fun inner outer : Conversion => outer.Calls inner := by
  apply Subrelation.wf _ (InvImage.wf remaining WellFoundedRelation.wf)
  intro inner outer called
  exact called.remaining_lt

/-- A chain of conversions inside one scope, each asked for by the one before,
with the siblings that are entered on the way. -/
inductive Chain (outer : Conversion) : List String → Conversion → Prop where
  | start : Chain outer [] outer
  | inner {entered : List String} {last : Conversion} {part : Rule}
    (before : Chain outer entered last) (inside : part ∈ last.rule.kind.inner) :
    Chain outer entered ⟨part, last.scope⟩
  | sibling {entered : List String} {last : Conversion} {value : Option Json} {name : String}
    {strict : Bool} {rule : Rule} (before : Chain outer entered last)
    (equal : last.rule.kind = .equal value (some name) strict)
    (reached : last.scope.reachable? name = some rule) :
    Chain outer (entered ++ [name]) ⟨rule, last.scope.enter name⟩

variable {outer last : Conversion} {entered : List String}

/-- Along a chain the fields around stay the same, and the scope knows what was entered. -/
theorem Chain.scope_eq (chain : outer.Chain entered last) :
    last.scope = { outer.scope with resolving := outer.scope.resolving ++ entered } := by
  induction chain with
  | start => rw [List.append_nil]
  | inner _ _ inductionHypothesis => exact inductionHypothesis
  | sibling _ _ _ inductionHypothesis =>
    simp only [Scope.enter, inductionHypothesis, List.append_assoc]

/-- No field is entered twice, and only fields of the scope are. -/
theorem Chain.nodup (chain : outer.Chain entered last) :
    entered.Nodup ∧ entered ⊆ outer.scope.siblings.names := by
  induction chain with
  | start => exact ⟨List.nodup_nil, List.nil_subset _⟩
  | inner _ _ inductionHypothesis => exact inductionHypothesis
  | @sibling entered last _ name _ rule before _ reached inductionHypothesis =>
    rcases inductionHypothesis with ⟨distinct, known⟩
    rcases Scope.get?_of_reachable?_eq_some reached with ⟨fresh, found⟩
    rw [before.scope_eq] at fresh found
    have absent : name ∉ entered := by
      intro member
      simp [member] at fresh
    constructor
    · rw [← List.concat_eq_append]
      exact distinct.concat absent
    · apply List.append_subset.mpr
      refine ⟨known, fun other only => ?_⟩
      rw [List.mem_singleton.mp only]
      exact Entries.mem_names_iff.mpr ⟨rule, found⟩

theorem Chain.length_le (chain : outer.Chain entered last) :
    entered.length ≤ outer.scope.siblings.length := by
  rcases chain.nodup with ⟨distinct, known⟩
  calc
    entered.length ≤ outer.scope.siblings.names.length := distinct.length_le_of_subset known
    _ = outer.scope.siblings.length := List.length_map _

end Conversion
end RouteDocs
