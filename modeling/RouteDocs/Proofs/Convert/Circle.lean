import Mathlib.Data.List.Chain
import RouteDocs.Proofs.Convert.Inside

namespace RouteDocs

/-!
# Circles of fields that are equal to each other

Fields may be equal to each other in a circle, and then no field has a rule of
another kind to be converted like.  The scope of a field remembers the siblings
that are entered and not the field itself.  From each of its fields the circle
is therefore walked once and closed: the field is entered as the last sibling,
and its own rule is refused the sibling that was entered first.  So this rule is
converted to its own constant, whatever values the others have, and all of them
pass on its type and its example.
-/

/-- The type and the examples of an object are those that a rule infers from its
own value. -/
structure SchemaObject.InferredFrom (value : Option Json) (strict : Bool) (object : SchemaObject) :
    Prop where
  unknown : value = none → object.type = some .string ∧ object.examples = []
  strictly : ∀ constant, value = some constant → strict = true →
    object.type = typeOf constant ∧ object.examples = [constant]
  loosely : ∀ constant, value = some constant → strict = false →
    object.type = some .string ∧ object.examples = [.text (constant.asText?.getD constant.compact)]

namespace SchemaObject

theorem inferredFrom_constant (value : Option Json) (strict : Bool) :
    (constant value strict).InferredFrom value strict where
  unknown none := by
    rw [none]
    exact ⟨rfl, rfl⟩
  strictly known same mode := by
    rw [same, mode]
    exact ⟨rfl, rfl⟩
  loosely known same mode := by
    rw [same, mode]
    exact ⟨rfl, rfl⟩

/-- Neither type nor examples are written into an object from around it. -/
theorem InferredFrom.of_bare {value : Option Json} {strict : Bool} {first second : SchemaObject}
    (inferred : first.InferredFrom value strict) (same : second.bare = first.bare) :
    second.InferredFrom value strict := by
  have type : second.bare.type = first.bare.type := by rw [same]
  have examples : second.bare.examples = first.bare.examples := by rw [same]
  change second.type = first.type at type
  change second.examples = first.examples at examples
  constructor <;> rw [type, examples]
  · exact inferred.unknown
  · exact inferred.strictly
  · exact inferred.loosely

end SchemaObject

namespace Conversion

/-- The step from a rule to the sibling that it is equal to. -/
def Follows (outer inner : Conversion) : Prop :=
  ∃ value name strict, outer.rule.kind = .equal value (some name) strict ∧
    outer.scope.reachable? name = some inner.rule ∧ inner.scope = outer.scope.enter name

/-- A conversion makes a given shape, up to what is written into it from around. -/
def TakesShape (conversion : Conversion) (shape : SchemaObject) : Prop :=
  ∃ object, conversion.rule.fragment? {} conversion.scope =
    some { schema := .inline object, optional := conversion.rule.isOptional } ∧
      object.bare = shape.bare

variable {outer inner : Conversion} {shape : SchemaObject}

theorem takesShape_of_shape {object : SchemaObject}
    (shaped : outer.rule.kind.shape? (fun part => part.fragment? {} outer.scope)
      outer.scope.fragment? = some object)
    (same : object.bare = shape.bare) : outer.TakesShape shape := by
  rw [TakesShape, Rule.fragment?_eq, shaped]
  exact ⟨_, rfl, same⟩

/-- A rule that is refused its sibling is converted to its own constant. -/
theorem takesShape_of_refused {value : Option Json} {name : String} {strict : Bool}
    (equal : outer.rule.kind = .equal value (some name) strict)
    (refused : name ∈ outer.scope.resolving) : outer.TakesShape (.constant value strict) := by
  have unreached : outer.scope.fragment? name = none := by
    simp [Scope.fragment?, Scope.reachable?, refused]
  apply takesShape_of_shape _ rfl
  rw [equal, RuleKind.shape?, Option.bind_some, unreached]
  rfl

/-- A rule takes the shape of the sibling that it is equal to. -/
theorem Follows.takesShape (follows : outer.Follows inner) (shaped : inner.TakesShape shape) :
    outer.TakesShape shape := by
  rcases follows with ⟨value, name, strict, equal, reached, entered⟩
  rcases shaped with ⟨object, converted, same⟩
  rw [entered] at converted
  apply takesShape_of_shape _ same
  rw [equal, RuleKind.shape?, Option.bind_some, Scope.fragment?_of_reached reached, converted]
  rfl

theorem takesShape_of_follows (walk : Relation.ReflTransGen Follows outer inner)
    (shaped : inner.TakesShape shape) : outer.TakesShape shape := by
  induction walk using Relation.ReflTransGen.head_induction_on with
  | refl => exact shaped
  | head follows _ inductionHypothesis => exact follows.takesShape inductionHypothesis

end Conversion

namespace Entries

variable {fields : Entries Rule} {first name : String} {others : List String}

/-- One field is equal to another. -/
def EqualTo (fields : Entries Rule) (field sibling : String) : Prop :=
  ∃ rule value strict, fields.get? field = some rule ∧
    rule.kind = .equal value (some sibling) strict

/-- Different fields of which each is equal to the next one and the last to the first. -/
structure Circle (fields : Entries Rule) (first : String) (others : List String) : Prop where
  distinct : (first :: others).Nodup
  linked : List.IsChain fields.EqualTo (first :: (others ++ [first]))

/-- A circle may be walked from each of its fields. -/
theorem Circle.startingAt (circle : fields.Circle first others) (member : name ∈ first :: others) :
    ∃ rest, fields.Circle name rest := by
  rcases List.append_of_mem member with ⟨before, after, split⟩
  cases before with
  | nil =>
    cases split
    exact ⟨others, circle⟩
  | cons start between =>
    rw [List.cons_append, List.cons.injEq] at split
    rcases split with ⟨rfl, rfl⟩
    have turned : (name :: after ++ first :: between).Perm (first :: between ++ name :: after) :=
      List.perm_append_comm
    have linked : List.IsChain fields.EqualTo (first :: between ++ name :: (after ++ [first])) := by
      simpa only [List.cons_append, List.append_assoc] using circle.linked
    have back : List.IsChain fields.EqualTo (name :: after ++ first :: (between ++ [name])) :=
      List.isChain_split.mpr (List.isChain_split.mp linked).symm
    refine ⟨after ++ first :: between, turned.nodup_iff.mpr circle.distinct, ?_⟩
    simpa only [List.cons_append, List.append_assoc] using back

theorem Circle.linked_first (circle : fields.Circle first others) :
    ∃ next ∈ others ++ [first], fields.EqualTo first next := by
  cases others with
  | nil =>
    exact ⟨first, List.mem_singleton_self first, List.isChain_pair.mp circle.linked⟩
  | cons next rest =>
    exact ⟨next, List.mem_cons_self, (List.isChain_cons_cons.mp circle.linked).1⟩

theorem Circle.exists_rule (circle : fields.Circle first others) (member : name ∈ first :: others) :
    ∃ rule, fields.get? name = some rule := by
  rcases circle.startingAt member with ⟨rest, fromName⟩
  rcases fromName.linked_first with ⟨_, _, rule, _, _, found, _⟩
  exact ⟨rule, found⟩

end Entries

/-- Along fields of which each is equal to the next one, the last is entered after
all before it, provided that none has been entered yet. -/
theorem Conversion.follows_of_linked {fields : Entries Rule} {field : String} {rule : Rule}
    {entered resolving : List String} (found : fields.get? field = some rule)
    (linked : List.IsChain fields.EqualTo (field :: entered))
    (known : ∀ name ∈ entered, ∃ rule, fields.get? name = some rule)
    (distinct : (resolving ++ entered).Nodup) :
    ∃ last, fields.get? ((field :: entered).getLast (List.cons_ne_nil _ _)) = some last ∧
      Relation.ReflTransGen Follows ⟨rule, ⟨fields, resolving⟩⟩
        ⟨last, ⟨fields, resolving ++ entered⟩⟩ := by
  induction entered generalizing field rule resolving with
  | nil =>
    rw [List.append_nil]
    exact ⟨rule, found, .refl⟩
  | cons next rest inductionHypothesis =>
    rcases List.isChain_cons_cons.mp linked with ⟨⟨own, value, strict, foundOwn, equal⟩, further⟩
    cases found.symm.trans foundOwn
    rcases known next List.mem_cons_self with ⟨nextRule, foundNext⟩
    have fresh : next ∉ resolving := fun member =>
      (List.nodup_append.mp distinct).2.2 next member next List.mem_cons_self rfl
    have step : Follows ⟨rule, ⟨fields, resolving⟩⟩ ⟨nextRule, ⟨fields, resolving ++ [next]⟩⟩ :=
      ⟨value, next, strict, equal, (Scope.reachable?_of_fresh fresh).trans foundNext, rfl⟩
    rw [List.append_cons] at distinct ⊢
    rcases inductionHypothesis foundNext further
        (fun name member => known name (List.mem_cons_of_mem next member)) distinct with
      ⟨last, foundLast, walk⟩
    refine ⟨last, ?_, .head step walk⟩
    rw [List.getLast_cons_cons]
    exact foundLast

/-- The first field of a circle takes the shape of its own constant. -/
theorem Entries.Circle.takesShape {fields : Entries Rule} {first : String}
    {others : List String} (circle : fields.Circle first others) {rule : Rule}
    {value : Option Json} {field : Option String} {strict : Bool}
    (found : fields.get? first = some rule)
    (equal : rule.kind = .equal value field strict) :
    (Conversion.mk rule (.ofFields fields)).TakesShape (.constant value strict) := by
  have distinct : ([] ++ (others ++ [first])).Nodup :=
    (List.perm_append_singleton first others).nodup_iff.mpr circle.distinct
  have known : ∀ name ∈ others ++ [first], ∃ rule, fields.get? name = some rule :=
    fun name member => circle.exists_rule
      ((List.perm_append_singleton first others).mem_iff.mp member)
  rcases Conversion.follows_of_linked found circle.linked known distinct with
    ⟨last, foundLast, walk⟩
  -- Back at the first field, the sibling that its rule asks for has been entered.
  have closed : (first :: (others ++ [first])).getLast (List.cons_ne_nil _ _) = first := by simp
  rw [closed] at foundLast
  cases found.symm.trans foundLast
  rcases circle.linked_first with ⟨next, entered, own, _, _, foundOwn, asked⟩
  cases found.symm.trans foundOwn
  cases equal.symm.trans asked
  exact Conversion.takesShape_of_follows walk (Conversion.takesShape_of_refused equal entered)

namespace MapperTable

/-- Fields that are equal to each other in a circle are converted to the type and
the example of their own values, whatever the values of the others are. -/
theorem circle_falls_back_to_own_values {fields : Entries Rule} {first : String}
    {others : List String} (circle : fields.Circle first others) :
    ∃ fragments, builtin.convertFields fields = .ok fragments ∧
      ∀ name ∈ first :: others, ∀ rule value field strict, fields.get? name = some rule →
        rule.kind = .equal value field strict →
          ∃ object, fragments.get? name =
              some { schema := .inline object, optional := rule.isOptional } ∧
            object.InferredFrom value strict := by
  refine ⟨_, convertFields_builtin fields, ?_⟩
  intro name member rule value field strict found equal
  rcases circle.startingAt member with ⟨rest, fromName⟩
  rcases fromName.takesShape found equal with ⟨object, converted, same⟩
  exact ⟨object, Fragment.get?_ofEntries_eq_some found converted,
    (SchemaObject.inferredFrom_constant value strict).of_bare same⟩

end MapperTable

/-! ## A circle of three fields with different values -/

def Rule.circle : Entries Rule :=
  [("a", { kind := .equal (some (.integer 5)) (some "b") true }),
    ("note", .text),
    ("b", { kind := .equal (some (.bool true)) (some "c") false }),
    ("c", { kind := .equal none (some "a") true })]

theorem MapperTable.circle_falls_back_to_own_values_three :
    Rule.circle.Circle "a" ["b", "c"] ∧
      ∃ fragments, builtin.convertFields Rule.circle = .ok fragments ∧
        (∃ object, fragments.get? "a" = some { schema := .inline object, optional := false } ∧
          object.type = some .integer ∧ object.examples = [.integer 5]) ∧
        (∃ object, fragments.get? "b" = some { schema := .inline object, optional := false } ∧
          object.type = some .string ∧ object.examples = [.text "true"]) ∧
        ∃ object, fragments.get? "c" = some { schema := .inline object, optional := false } ∧
          object.type = some .string ∧ object.examples = [] := by
  have circle : Rule.circle.Circle "a" ["b", "c"] :=
    { distinct := by decide
      linked := .cons_cons ⟨_, _, _, rfl, rfl⟩ (.cons_cons ⟨_, _, _, rfl, rfl⟩
        (.cons_cons ⟨_, _, _, rfl, rfl⟩ (.singleton _))) }
  rcases circle_falls_back_to_own_values circle with ⟨fragments, converted, own⟩
  rcases own "a" (by decide) _ _ _ _ rfl rfl with ⟨a, foundA, inferredA⟩
  rcases own "b" (by decide) _ _ _ _ rfl rfl with ⟨b, foundB, inferredB⟩
  rcases own "c" (by decide) _ _ _ _ rfl rfl with ⟨c, foundC, inferredC⟩
  exact ⟨circle, fragments, converted, ⟨a, foundA, inferredA.strictly _ rfl rfl⟩,
    ⟨b, foundB, inferredB.loosely _ rfl rfl⟩, ⟨c, foundC, inferredC.unknown rfl⟩⟩

end RouteDocs
