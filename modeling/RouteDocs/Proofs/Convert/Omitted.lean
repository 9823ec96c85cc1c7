import RouteDocs.Proofs.Convert.Fallbacks

namespace RouteDocs

/-!
# Rules that no document describes

Whether a rule appears in a document is decided by the rule alone.  Neither the
fields around it nor what is known of the rules that enclose it take part, and
a rule that is equal to a sibling appears even where the sibling does not.

What contains a rule that does not appear goes without it in its own way: an
object has one property less, a list of alternatives or of places one member
less, and alternatives of which none is left do not appear themselves.  The
order of what is left is that in which it was declared, at every depth.
-/

/-- The kinds that no document describes. -/
def RuleTag.undocumented : List RuleTag := [.instanceOf, .custom, .forbidden, .function]

/-- The kinds of which every rule appears are the other ones. -/
theorem RuleKind.alwaysAppears_iff {kind : RuleKind} :
    kind.alwaysAppears = true ↔
      kind.tag ∉ RuleTag.undocumented ∧ kind ≠ .date false ∧ ∀ members, kind ≠ .multi members := by
  cases kind with
  | date converted => cases converted <;> simp [alwaysAppears, tag, RuleTag.undocumented]
  | _ => simp [alwaysAppears, tag, RuleTag.undocumented]

namespace Rule

/-- A rule that no document describes: its kind is never described, or it is a
date that is not converted, or no document describes any of its alternatives. -/
inductive Undocumentable : Rule → Prop where
  | kind {rule : Rule} (hidden : rule.kind.tag ∈ RuleTag.undocumented) : Undocumentable rule
  | date {rule : Rule} (unconverted : rule.kind = .date false) : Undocumentable rule
  | choice {rule : Rule} {members : List Rule} (choice : rule.kind = .multi members)
    (none : ∀ member ∈ members, Undocumentable member) : Undocumentable rule

/-! ## The condition can be computed -/

mutual

def isUndocumentable (rule : Rule) : Bool :=
  match rule with
  | { kind, .. } => kindIsUndocumentable kind

def kindIsUndocumentable (kind : RuleKind) : Bool :=
  match kind with
  | .date converted => !converted
  | .multi members => allUndocumentable members
  | kind => decide (kind.tag ∈ RuleTag.undocumented)

def allUndocumentable (members : List Rule) : Bool :=
  match members with
  | [] => true
  | member :: rest => isUndocumentable member && allUndocumentable rest

end

theorem allUndocumentable_iff {members : List Rule} :
    allUndocumentable members = true ↔ ∀ member ∈ members, member.isUndocumentable = true := by
  induction members with
  | nil => exact ⟨fun _ => List.forall_mem_nil _, fun _ => rfl⟩
  | cons member rest inductionHypothesis =>
    rw [allUndocumentable, Bool.and_eq_true, inductionHypothesis, List.forall_mem_cons]

theorem isUndocumentable_eq (rule : Rule) :
    rule.isUndocumentable = kindIsUndocumentable rule.kind := by
  cases rule
  rfl

/-- Alternatives are decided one by one, every other kind by itself. -/
theorem isUndocumentable_iff {rule : Rule} :
    rule.isUndocumentable = true ↔ rule.Undocumentable := by
  induction rule using inductionOnParts with
  | step rule inductionHypothesis =>
    rw [isUndocumentable_eq]
    constructor
    · intro computed
      cases kind : rule.kind with
      | date converted =>
        rw [kind] at computed
        cases converted with
        | true => cases computed
        | false => exact .date kind
      | multi members =>
        rw [kind] at computed
        refine .choice kind fun member listed => ?_
        have inside := RuleKind.mem_parts_of_multi kind listed
        have hidden := allUndocumentable_iff.mp computed member listed
        exact (inductionHypothesis member inside).mp hidden
      | _ =>
        rw [kind] at computed
        exact .kind (by rw [kind]; exact of_decide_eq_true computed)
    · intro undocumentable
      cases undocumentable with
      | kind hidden =>
        cases kind : rule.kind with
        | date | multi =>
          rw [kind] at hidden
          exact absurd hidden (of_decide_eq_true rfl)
        | _ =>
          rw [kind] at hidden
          exact decide_eq_true hidden
      | date unconverted => rw [unconverted]; rfl
      | @choice _ members choice none =>
        rw [choice]
        refine allUndocumentable_iff.mpr fun member listed => ?_
        have inside := RuleKind.mem_parts_of_multi choice listed
        exact (inductionHypothesis member inside).mpr (none member listed)

instance (rule : Rule) : Decidable rule.Undocumentable :=
  decidable_of_iff (rule.isUndocumentable = true) isUndocumentable_iff

/-! ## Omission -/

theorem undocumentable_iff_not_appears {rule : Rule} : rule.Undocumentable ↔ ¬rule.Appears := by
  constructor
  · intro undocumentable appears
    induction undocumentable with
    | kind hidden =>
      cases appears with
      | always always => exact (RuleKind.alwaysAppears_iff.mp always).1 hidden
      | alternative choice =>
        rw [choice] at hidden
        exact absurd hidden (of_decide_eq_true rfl)
    | date unconverted =>
      cases appears with
      | always always => exact (RuleKind.alwaysAppears_iff.mp always).2.1 unconverted
      | alternative choice => cases unconverted.symm.trans choice
    | choice choice _ inductionHypothesis =>
      cases appears with
      | always always => exact (RuleKind.alwaysAppears_iff.mp always).2.2 _ choice
      | alternative again listed appears =>
        cases choice.symm.trans again
        exact inductionHypothesis _ listed appears
  · induction rule using inductionOnParts with
    | step rule inductionHypothesis =>
      intro hidden
      by_cases choice : ∃ members, rule.kind = .multi members
      · rcases choice with ⟨members, choice⟩
        refine .choice choice fun member listed => ?_
        have inside := RuleKind.mem_parts_of_multi choice listed
        exact inductionHypothesis member inside fun appears =>
          hidden (.alternative choice listed appears)
      · by_contra documentable
        refine hidden (.always (RuleKind.alwaysAppears_iff.mpr ⟨?_, ?_, ?_⟩))
        · exact fun kind => documentable (.kind kind)
        · exact fun unconverted => documentable (.date unconverted)
        · exact fun members kind => choice ⟨members, kind⟩

theorem fragment?_eq_none_iff {rule : Rule} {defaults : Notes} {scope : Scope} :
    rule.fragment? defaults scope = none ↔ rule.Undocumentable := by
  rw [undocumentable_iff_not_appears]
  constructor
  · intro none appears
    rcases appears.exists_fragment defaults scope with ⟨fragment, converted⟩
    cases none.symm.trans converted
  · intro hidden
    by_contra shown
    rcases Option.ne_none_iff_exists'.mp shown with ⟨fragment, converted⟩
    exact hidden (appears_of_fragment? converted)

end Rule

/-! ## What is left, in order -/

/-- Among given fields a rule is converted to a schema. -/
def MapperTable.Makes (scope : Scope) (rule : Rule) (schema : Schema) : Prop :=
  ∃ fragment, builtin.convert rule {} scope = .ok (some fragment) ∧ fragment.schema = schema

/-- Schemas of the documentable ones of some rules, in the order of the rules. -/
def Schema.ListDocumentable (scope : Scope) (members : List Rule) (schemas : List Schema) : Prop :=
  List.Forall₂ (MapperTable.Makes scope)
    (members.filter fun member => ¬member.Undocumentable) schemas

/-- Fragments of the documentable ones of some fields, in the order of declaration. -/
def Fragment.ListDocumentable (fields : Entries Rule) (fragments : Entries Fragment) : Prop :=
  List.Forall₂ (fun field shown => shown.1 = field.1 ∧
      MapperTable.builtin.convert field.2 {} (.ofFields fields) = .ok (some shown.2))
    (fields.filter fun field => ¬field.2.Undocumentable) fragments

/-- The properties are the documentable ones of some fields, in the order of
declaration, each with the schema that its rule is converted to among them. -/
def SchemaObject.Declares (fields : Entries Rule) (object : SchemaObject) : Prop :=
  List.Forall₂ (fun field property => property.1 = field.1 ∧
      MapperTable.Makes (.ofFields fields) field.2 property.2)
    (fields.filter fun field => ¬field.2.Undocumentable) object.properties

theorem SchemaObject.Declares.names_properties {fields : Entries Rule} {object : SchemaObject}
    (declares : object.Declares fields) :
    Entries.names object.properties =
      Entries.names (fields.filter fun field => ¬field.2.Undocumentable) := by
  have same : List.Forall₂ (fun shown declared => shown = declared)
      (Entries.names object.properties)
      (Entries.names (fields.filter fun field => ¬field.2.Undocumentable)) := by
    apply List.forall₂_map_left_iff.mpr
    apply List.forall₂_map_right_iff.mpr
    exact declares.flip.imp fun _ _ named => named.1
  rwa [List.forall₂_eq_eq_eq] at same

/-- What is made of each rule that is not left out, when nothing is made of the others. -/
theorem forall₂_documentable {α β : Type} {rule : α → Rule} {make : α → Option β}
    (omitted : ∀ item, make item = none ↔ (rule item).Undocumentable) (items : List α) :
    List.Forall₂ (fun item made => make item = some made)
      (items.filter fun item => ¬(rule item).Undocumentable) (items.filterMap make) := by
  induction items with
  | nil => exact .nil
  | cons item rest inductionHypothesis =>
    cases made : make item with
    | none =>
      have hidden := (omitted item).mp made
      rw [List.filterMap_cons_none made, List.filter_cons_of_neg (by simpa using hidden)]
      exact inductionHypothesis
    | some value =>
      have shown : ¬(rule item).Undocumentable := by
        rw [← omitted item, made]
        exact Option.some_ne_none value
      rw [List.filterMap_cons_some made, List.filter_cons_of_pos (by simpa using shown)]
      exact .cons made inductionHypothesis

theorem Fragment.schemasOf_listDocumentable (scope : Scope) (members : List Rule) :
    Schema.ListDocumentable scope members
      (Fragment.schemasOf (fun member => member.fragment? {} scope) members) := by
  have omitted : ∀ member : Rule,
      (member.fragment? {} scope).map Fragment.schema = none ↔ member.Undocumentable :=
    fun member => Option.map_eq_none_iff.trans Rule.fragment?_eq_none_iff
  apply (forall₂_documentable omitted members).imp
  intro member schema made
  rcases Option.map_eq_some_iff.mp made with ⟨fragment, converted, same⟩
  exact ⟨fragment, by rw [MapperTable.convert_builtin, converted], same⟩

theorem Fragment.ofFields_listDocumentable (fields : Entries Rule) :
    Fragment.ListDocumentable fields (Fragment.ofFields fields) := by
  have omitted : ∀ field : String × Rule,
      (field.2.fragment? {} (.ofFields fields)).map (fun fragment => (field.1, fragment)) = none ↔
        field.2.Undocumentable :=
    fun field => Option.map_eq_none_iff.trans Rule.fragment?_eq_none_iff
  apply (forall₂_documentable omitted fields).imp
  intro field shown made
  rcases Option.map_eq_some_iff.mp made with ⟨fragment, converted, rfl⟩
  exact ⟨rfl, by rw [MapperTable.convert_builtin, converted]⟩

theorem ObjectLimits.declares_schema (limits : ObjectLimits) (fields : Entries Rule) :
    (limits.schema (Fragment.ofFields fields)).Declares fields := by
  apply List.forall₂_map_right_iff.mpr
  apply (Fragment.ofFields_listDocumentable fields).imp
  rintro field shown ⟨sameName, converted⟩
  exact ⟨sameName, shown.2, converted, rfl⟩

/-- Alternatives of which some are documentable are converted to a choice. -/
theorem Rule.fragment?_of_choice {rule : Rule} {members : List Rule}
    (choice : rule.kind = .multi members) (documentable : ¬rule.Undocumentable)
    (defaults : Notes) (scope : Scope) :
    rule.fragment? defaults scope = some (rule.finish defaults
      (.oneOfThese (Fragment.schemasOf (fun member => member.fragment? {} scope) members))) := by
  have shown : rule.fragment? defaults scope ≠ none := mt fragment?_eq_none_iff.mp documentable
  rw [fragment?_eq, choice, RuleKind.shape?] at shown ⊢
  split at shown
  · exact absurd rfl shown
  · next some => rw [if_neg some, Option.map_some]

/-- Properties are not written into an object from around it. -/
theorem SchemaObject.declares_bare (fields : Entries Rule) (object : SchemaObject) :
    object.bare.Declares fields ↔ object.Declares fields := Iff.rfl

namespace Conversion

variable {outer inner : Conversion} {fields : Entries Rule}

/-- However far inside an object rule is converted, its fields are seen in the whole. -/
theorem somewhere_declares (within : Relation.ReflTransGen Calls outer inner)
    {limits : ObjectLimits} (object : inner.rule.kind = .object (some fields) limits)
    (defaults : Notes) :
    ∃ whole, outer.rule.fragment? defaults outer.scope = some whole ∧
      whole.schema.Somewhere (SchemaObject.Declares fields) := by
  have lasting := SchemaObject.lasting_of_bare (SchemaObject.declares_bare fields)
  have converted : inner.rule.fragment? {} inner.scope =
      some (inner.rule.finish {} (limits.schema (Fragment.ofFields fields))) := by
    rw [Rule.fragment?_eq, object]
    rfl
  have declared := Schema.somewhere_inline (limits.declares_schema fields)
  exact somewhere_of_calls within converted lasting (declared.finish lasting inner.rule {}) defaults

/-- All properties in a converted rule are the fields of object rules inside it. -/
theorem everywhere_declares {defaults : Notes} {whole : Fragment}
    (converted : outer.rule.fragment? defaults outer.scope = some whole) :
    whole.schema.Everywhere fun object => object.properties = [] ∨
      ∃ inner, Relation.ReflTransGen Calls outer inner ∧
        object.Declares inner.rule.kind.fields := by
  apply everywhere_of_calls (fun _ => Iff.rfl) _ _ converted
  · exact fun object none => Or.inl none
  · intro inner within limits
    exact Or.inr ⟨inner, within, limits.declares_schema _⟩

end Conversion

namespace MapperTable

/-- Whether a rule appears in a document is decided by the rule alone, whatever
fields are around it.  So the properties of an object, however far inside it is
converted, are exactly its documentable fields in the order of declaration, and a
choice and a tuple list exactly the schemas of their documentable members in order. -/
theorem omission_is_decided_by_rule (conversion : Conversion) (defaults : Notes) :
    (builtin.convert conversion.rule defaults conversion.scope = .ok none ↔
      conversion.rule.Undocumentable) ∧
    (∀ fields, ∃ fragments, builtin.convertFields fields = .ok fragments ∧
      Fragment.ListDocumentable fields fragments) ∧
    (∀ fields limits, conversion.rule.kind = .object (some fields) limits →
      ∃ object, builtin.convert conversion.rule defaults conversion.scope =
          .ok (some { schema := .inline object, optional := conversion.rule.isOptional }) ∧
        object.Declares fields) ∧
    (∀ inner, Relation.ReflTransGen Conversion.Calls conversion inner → ∀ fields limits,
      inner.rule.kind = .object (some fields) limits →
        ∃ whole, builtin.convert conversion.rule defaults conversion.scope = .ok (some whole) ∧
          whole.schema.Somewhere (SchemaObject.Declares fields)) ∧
    (∀ whole, builtin.convert conversion.rule defaults conversion.scope = .ok (some whole) →
      whole.schema.Everywhere fun object => object.properties = [] ∨
        ∃ inner, Relation.ReflTransGen Conversion.Calls conversion inner ∧
          object.Declares inner.rule.kind.fields) ∧
    (∀ members, conversion.rule.kind = .multi members → ¬conversion.rule.Undocumentable →
      ∃ object, builtin.convert conversion.rule defaults conversion.scope =
          .ok (some { schema := .inline object, optional := conversion.rule.isOptional }) ∧
        Schema.ListDocumentable conversion.scope members object.oneOf) ∧
    ∀ members, conversion.rule.kind = .tuple members →
      ∃ object schemas, builtin.convert conversion.rule defaults conversion.scope =
          .ok (some { schema := .inline object, optional := conversion.rule.isOptional }) ∧
        Schema.ListDocumentable conversion.scope members schemas ∧
          object.items =
            if schemas.isEmpty then none else some (.inline (.oneOfThese schemas)) := by
  rcases conversion with ⟨rule, scope⟩
  simp only [convert_builtin, Except.ok.injEq]
  refine ⟨Rule.fragment?_eq_none_iff, ?_, ?_, ?_, ?_, ?_, ?_⟩
  · intro fields
    exact ⟨_, convertFields_builtin fields, Fragment.ofFields_listDocumentable fields⟩
  · intro fields limits object
    rw [Rule.fragment?_eq, object]
    exact ⟨_, rfl, limits.declares_schema fields⟩
  · intro inner within fields limits object
    exact Conversion.somewhere_declares within object defaults
  · intro whole converted
    exact Conversion.everywhere_declares converted
  · intro members choice documentable
    exact ⟨_, Rule.fragment?_of_choice choice documentable defaults scope,
      Fragment.schemasOf_listDocumentable scope members⟩
  · intro members places
    rw [Rule.fragment?_eq, places]
    exact ⟨_, _, rfl, Fragment.schemasOf_listDocumentable scope members, rfl⟩

end MapperTable

/-! ## An object of which some fields do not appear -/

def Rule.streets : Entries Rule := [("token", { kind := .instanceOf }), ("street", .text)]

/-- A field is equal to a hidden one, and of a choice no alternative is left. -/
def Rule.profile : Entries Rule :=
  [("secret", { kind := .forbidden }),
    ("again", .sameAs "secret"),
    ("hook", { kind := .multi [{ kind := .function }, { kind := .date false }] }),
    ("address", .object Rule.streets)]

theorem MapperTable.omission_is_decided_by_rule_profile :
    let hook : Rule := { kind := .multi [{ kind := .function }, { kind := .date false }] }
    builtin.convert hook {} (.ofFields Rule.profile) = .ok none ∧
    ∃ whole, builtin.convert (.object Rule.profile) {} {} = .ok (some whole) ∧
      (∃ object, whole.schema = .inline object ∧
        Entries.names object.properties = ["again", "address"]) ∧
      whole.schema.Somewhere fun object => Entries.names object.properties = ["street"] := by
  intro hook
  have hidden := (omission_is_decided_by_rule ⟨hook, .ofFields Rule.profile⟩ {}).1.mpr (by decide)
  have declared : ("address", Rule.object Rule.streets) ∈ Rule.profile :=
    Entries.mem_of_get?_eq_some rfl
  have within : Relation.ReflTransGen Conversion.Calls ⟨.object Rule.profile, {}⟩
      ⟨.object Rule.streets, .ofFields Rule.profile⟩ := .single (.field declared)
  rcases omission_is_decided_by_rule ⟨.object Rule.profile, {}⟩ {} with
    ⟨-, -, outermost, inside, -⟩
  rcases outermost Rule.profile {} rfl with ⟨object, converted, declares⟩
  rcases inside _ within Rule.streets {} rfl with ⟨whole, alsoConverted, somewhere⟩
  cases converted.symm.trans alsoConverted
  refine ⟨hidden, _, converted, ⟨object, rfl, declares.names_properties.trans (by decide)⟩, ?_⟩
  rcases somewhere with ⟨node, found, declaresInside⟩
  exact ⟨node, found, declaresInside.names_properties.trans (by decide)⟩

end RouteDocs
