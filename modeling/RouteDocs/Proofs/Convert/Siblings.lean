import Mathlib.Logic.Relation
import RouteDocs.Proofs.Convert.Builtin

namespace RouteDocs

/-!
# Fields that are equal to a sibling

A rule that asks for equality with a sibling is converted like this sibling.
The conversion remembers the siblings it is inside of and enters none of them
again, because siblings may refer to each other in a circle.  Where they do
not, this memory must not be seen: `fragment?_of_clear` says that what is
remembered does not change the fragment of a rule, as long as the rule leads to
none of the remembered fields.  In fields without a circle this covers every
conversion that is ever asked for, since a field that is being converted does
not lead back to itself.

A field that is equal to a sibling therefore has the fragment that its own rule
lays over the schema of the sibling, as the sibling is converted by itself.
-/

namespace Rule

/-- A rule asks for a sibling when it, or a rule inside it among the same
fields, asks for equality with it.  Fields of an object inside the rule have
siblings of their own and do not count; neither does the rule for the names of
a record, which is never converted. -/
inductive AsksFor (name : String) : Rule → Prop where
  | equal {rule : Rule} {value : Option Json} {strict : Bool}
    (same : rule.kind = .equal value (some name) strict) : AsksFor name rule
  | inner {rule part : Rule} (inside : part ∈ rule.kind.inner) (asks : AsksFor name part) :
    AsksFor name rule

end Rule

namespace Entries

/-- One field refers to another when its rule asks for it and it exists. -/
def Refers (fields : Entries Rule) (field sibling : String) : Prop :=
  ∃ rule, fields.get? field = some rule ∧ rule.AsksFor sibling ∧ sibling ∈ fields.names

/-- No field leads back to itself. -/
def Acyclic (fields : Entries Rule) : Prop :=
  ∀ field, ¬Relation.TransGen fields.Refers field field

/-- Fields are without a circle when every reference goes down in some rank. -/
theorem acyclic_of_rank {fields : Entries Rule} (rank : String → Nat)
    (descends : ∀ field sibling, fields.Refers field sibling → rank sibling < rank field) :
    fields.Acyclic := by
  have lower : ∀ {field sibling}, Relation.TransGen fields.Refers field sibling →
      rank sibling < rank field := by
    intro field sibling path
    induction path with
    | single refers => exact descends _ _ refers
    | tail _ refers inductionHypothesis =>
      exact Nat.lt_trans (descends _ _ refers) inductionHypothesis
  intro field circle
  exact Nat.lt_irrefl _ (lower circle)

end Entries

namespace Rule

variable {fields : Entries Rule} {rule part other : Rule} {name target : String}

/-- A rule leads to a field that it asks for, and to all that this field leads to. -/
def LeadsTo (fields : Entries Rule) (rule : Rule) (target : String) : Prop :=
  ∃ sibling, rule.AsksFor sibling ∧ sibling ∈ fields.names ∧
    Relation.ReflTransGen fields.Refers sibling target

theorem LeadsTo.of_inner (inside : part ∈ rule.kind.inner) (leads : part.LeadsTo fields target) :
    rule.LeadsTo fields target := by
  rcases leads with ⟨sibling, asks, known, path⟩
  exact ⟨sibling, .inner inside asks, known, path⟩

/-- The rule of a field leads exactly to what lies behind the field. -/
theorem leadsTo_iff_transGen (found : fields.get? name = some rule) :
    rule.LeadsTo fields target ↔ Relation.TransGen fields.Refers name target := by
  rw [Relation.TransGen.head'_iff]
  constructor
  · rintro ⟨sibling, asks, known, path⟩
    exact ⟨sibling, ⟨rule, found, asks, known⟩, path⟩
  · rintro ⟨sibling, ⟨own, held, asks, known⟩, path⟩
    rw [found] at held
    cases held
    exact ⟨sibling, asks, known, path⟩

theorem leadsTo_sibling {value : Option Json} {strict : Bool}
    (equal : rule.kind = .equal value (some name) strict) (found : fields.get? name = some other) :
    rule.LeadsTo fields name :=
  ⟨name, .equal equal, Entries.mem_names_iff.mpr ⟨other, found⟩, .refl⟩

theorem LeadsTo.of_sibling {value : Option Json} {strict : Bool}
    (equal : rule.kind = .equal value (some name) strict) (found : fields.get? name = some other)
    (leads : other.LeadsTo fields target) : rule.LeadsTo fields target :=
  ⟨name, .equal equal, Entries.mem_names_iff.mpr ⟨other, found⟩,
    ((leadsTo_iff_transGen found).mp leads).to_reflTransGen⟩

/-- Remembered fields that a rule does not lead to. -/
def Clear (fields : Entries Rule) (rule : Rule) (remembered : List String) : Prop :=
  ∀ target, rule.LeadsTo fields target → target ∉ remembered

theorem Clear.nil : rule.Clear fields [] :=
  fun _ _ => List.not_mem_nil

theorem Clear.inner {remembered : List String} (clear : rule.Clear fields remembered)
    (inside : part ∈ rule.kind.inner) : part.Clear fields remembered :=
  fun target leads => clear target (leads.of_inner inside)

/-- Entering a sibling leaves the way clear: the sibling does not lead back to itself. -/
theorem Clear.sibling (acyclic : fields.Acyclic) {remembered : List String}
    (clear : rule.Clear fields remembered) {value : Option Json} {strict : Bool}
    (equal : rule.kind = .equal value (some name) strict)
    (found : fields.get? name = some other) : other.Clear fields (remembered ++ [name]) := by
  intro target leads member
  rcases List.mem_append.mp member with earlier | last
  · exact clear target (leads.of_sibling equal found) earlier
  · rw [List.mem_singleton.mp last] at leads
    exact acyclic name ((leadsTo_iff_transGen found).mp leads)

/-- What is remembered does not change a rule that does not lead there. -/
theorem fragment?_of_clear (acyclic : fields.Acyclic) (rule : Rule) {first second : List String}
    (clearFirst : rule.Clear fields first) (clearSecond : rule.Clear fields second)
    (defaults : Notes) :
    rule.fragment? defaults ⟨fields, first⟩ = rule.fragment? defaults ⟨fields, second⟩ := by
  -- The induction is along the calls of the conversion that remembers `first`.
  have general : ∀ (conversion : Conversion) (first second : List String) (defaults : Notes),
      conversion.scope = ⟨fields, first⟩ → conversion.rule.Clear fields first →
      conversion.rule.Clear fields second →
        conversion.rule.fragment? defaults ⟨fields, first⟩ =
          conversion.rule.fragment? defaults ⟨fields, second⟩ := by
    intro conversion
    apply Conversion.wellFounded_calls.induction conversion
    rintro ⟨rule, scope⟩ inductionHypothesis first second defaults rfl clearFirst clearSecond
    rw [fragment?_eq, fragment?_eq]
    refine congrArg _ (RuleKind.shape?_congr ?_ ?_)
    · intro part inside
      exact inductionHypothesis _ (.inner inside) first second {} rfl (clearFirst.inner inside)
        (clearSecond.inner inside)
    · intro value name strict equal
      cases found : fields.get? name with
      | none => rw [Scope.fragment?_of_absent found, Scope.fragment?_of_absent found]
      | some other =>
        have leads := leadsTo_sibling equal found
        have reached : ∀ remembered : List String, name ∉ remembered →
            Scope.reachable? ⟨fields, remembered⟩ name = some other := by
          intro remembered fresh
          rw [Scope.reachable?_of_fresh fresh, found]
        have reachedFirst := reached first (clearFirst name leads)
        have reachedSecond := reached second (clearSecond name leads)
        rw [Scope.fragment?_of_reached reachedFirst, Scope.fragment?_of_reached reachedSecond]
        exact inductionHypothesis _ (.sibling equal reachedFirst) _ _ {} rfl
          (clearFirst.sibling acyclic equal found) (clearSecond.sibling acyclic equal found)
  exact general ⟨rule, fields, first⟩ first second defaults rfl clearFirst clearSecond

/-- What a rule says besides its kind, laid over the schema of its kind.  Only
what the rule sets replaces something, and the rule alone says whether the
value may be absent. -/
def laidOver (rule : Rule) (object : SchemaObject) : Fragment where
  schema := .inline
    { object with
      description := rule.notes.description.or object.description
      summary := rule.notes.summary.or object.summary
      deprecated := rule.notes.deprecated.or object.deprecated
      nullable := rule.nullable || object.nullable
      fallback := rule.fallback.or object.fallback }
  optional := rule.isOptional

theorem finish_eq_laidOver (rule : Rule) (object : SchemaObject) :
    rule.finish {} object = rule.laidOver object := by
  simp only [finish, laidOver, Notes.inherit, Option.or_none]

/-- A field that is equal to a sibling is converted like the sibling is by itself. -/
theorem fragment?_of_equal (acyclic : fields.Acyclic) {value : Option Json} {strict : Bool}
    (equal : rule.kind = .equal value (some name) strict) (found : fields.get? name = some other) :
    rule.fragment? {} (.ofFields fields) =
      some (rule.laidOver (((other.fragment? {} (.ofFields fields)).bind
        fun fragment => fragment.schema.object?).getD (.constant value strict))) := by
  have reached : (Scope.ofFields fields).reachable? name = some other := by
    rw [Scope.reachable?_of_fresh List.not_mem_nil]
    exact found
  have entered : other.Clear fields [name] := Clear.nil.sibling acyclic equal found
  have same : other.fragment? {} ((Scope.ofFields fields).enter name) =
      other.fragment? {} (.ofFields fields) := fragment?_of_clear acyclic other entered .nil {}
  rw [fragment?_eq, equal]
  simp only [RuleKind.shape?, Option.bind_some, Option.map_some,
    Scope.fragment?_of_reached reached, same, finish_eq_laidOver]

end Rule

/-! ## What a chain of conversions has entered -/

namespace Conversion

variable {fields : Entries Rule} {rule : Rule} {last : Conversion} {entered : List String}

/-- Every field that was entered leads to all that the last rule leads to. -/
theorem Chain.leadsTo (chain : (Conversion.mk rule (.ofFields fields)).Chain entered last)
    {field target : String} (member : field ∈ entered) (leads : last.rule.LeadsTo fields target) :
    Relation.TransGen fields.Refers field target := by
  induction chain generalizing field target with
  | start => cases member
  | inner _ inside inductionHypothesis => exact inductionHypothesis member (leads.of_inner inside)
  | sibling before equal reached inductionHypothesis =>
    have found := (Scope.get?_of_reachable?_eq_some reached).2
    rw [before.scope_eq] at found
    rcases List.mem_append.mp member with earlier | last
    · exact inductionHypothesis earlier (leads.of_sibling equal found)
    · rw [List.mem_singleton.mp last]
      exact (Rule.leadsTo_iff_transGen found).mp leads

theorem Chain.clear (acyclic : fields.Acyclic)
    (chain : (Conversion.mk rule (.ofFields fields)).Chain entered last) :
    last.rule.Clear fields entered :=
  fun target leads member => acyclic target (chain.leadsTo member leads)

/-- No sibling is refused because it has been entered. -/
theorem Chain.reachable?_eq (acyclic : fields.Acyclic)
    (chain : (Conversion.mk rule (.ofFields fields)).Chain entered last) {value : Option Json}
    {name : String} {strict : Bool} (equal : last.rule.kind = .equal value (some name) strict) :
    last.scope.reachable? name = fields.get? name := by
  rw [chain.scope_eq]
  cases found : fields.get? name with
  | none =>
    have absent : (Scope.ofFields fields).siblings.get? name = none := found
    simp only [Scope.reachable?, absent, ite_self]
  | some other =>
    have fresh : name ∉ entered := chain.clear acyclic name (Rule.leadsTo_sibling equal found)
    rw [Scope.reachable?_of_fresh (by simpa only [Scope.ofFields, List.nil_append] using fresh)]
    exact found

/-- The last conversion gives what it would give if nothing had been entered. -/
theorem Chain.fragment?_eq (acyclic : fields.Acyclic)
    (chain : (Conversion.mk rule (.ofFields fields)).Chain entered last) (defaults : Notes) :
    last.rule.fragment? defaults last.scope = last.rule.fragment? defaults (.ofFields fields) := by
  rw [chain.scope_eq]
  exact Rule.fragment?_of_clear acyclic last.rule (chain.clear acyclic) .nil defaults

end Conversion

namespace Fragment

/-- The fragment of a field among distinct ones is that of its rule. -/
theorem get?_ofEntries {entries : Entries Rule} (distinct : entries.names.Nodup) (scope : Scope)
    (name : String) :
    (ofEntries entries scope).get? name =
      (entries.get? name).bind fun rule => rule.fragment? {} scope := by
  induction entries with
  | nil => rfl
  | cons entry rest inductionHypothesis =>
    rcases entry with ⟨key, rule⟩
    rcases List.nodup_cons.mp distinct with ⟨fresh, distinctRest⟩
    have others := inductionHypothesis distinctRest
    by_cases same : key = name
    · subst same
      have absent : Entries.get? rest key = none := Entries.get?_of_absent fresh
      rw [absent, Option.bind_none] at others
      simp only [Entries.get?, if_true, Option.bind_some]
      cases shown : rule.fragment? {} scope with
      | none => simpa only [ofEntries, List.filterMap_cons, shown, Option.map_none] using others
      | some fragment =>
        simp only [ofEntries, List.filterMap_cons, shown, Option.map_some, Entries.get?, if_true]
    · simp only [Entries.get?, same, if_false]
      rw [← others]
      cases shown : rule.fragment? {} scope with
      | none => simp only [ofEntries, List.filterMap_cons, shown, Option.map_none]
      | some fragment =>
        simp only [ofEntries, List.filterMap_cons, shown, Option.map_some, Entries.get?, same,
          if_false]

theorem get?_ofFields {fields : Entries Rule} (distinct : fields.names.Nodup) {name : String}
    {rule : Rule} (found : fields.get? name = some rule) :
    (ofFields fields).get? name = rule.fragment? {} (.ofFields fields) := by
  rw [ofFields, get?_ofEntries distinct, found, Option.bind_some]

end Fragment

namespace MapperTable

/-- Among fields without a circle, a field that is equal to a sibling has the
schema of the sibling with what its own rule sets laid over it, or the type of
its own value where the sibling does not appear.  No conversion that is asked
for on the way is refused a sibling or changed by what has been entered. -/
theorem equal_field_follows_sibling {fields : Entries Rule} (distinct : fields.names.Nodup)
    (acyclic : fields.Acyclic) :
    ∃ fragments, builtin.convertFields fields = .ok fragments ∧
      (∀ field sibling rule value strict, fields.get? field = some rule →
        rule.kind = .equal value (some sibling) strict → sibling ∈ fields.names →
          (∀ found, fragments.get? sibling = some found →
            ∃ object, found.schema = .inline object ∧
              fragments.get? field = some (rule.laidOver object)) ∧
          (fragments.get? sibling = none →
            fragments.get? field = some (rule.laidOver (.constant value strict)))) ∧
      ∀ rule entered last, (Conversion.mk rule (.ofFields fields)).Chain entered last →
        (∀ value name strict, last.rule.kind = .equal value (some name) strict →
          last.scope.reachable? name = fields.get? name) ∧
        ∀ defaults, builtin.convert last.rule defaults last.scope =
          builtin.convert last.rule defaults (.ofFields fields) := by
  refine ⟨Fragment.ofFields fields, convertFields_builtin fields, ?_, ?_⟩
  · intro field sibling rule value strict listed equal known
    rcases Entries.mem_names_iff.mp known with ⟨other, found⟩
    have own := rule.fragment?_of_equal acyclic equal found
    rw [Fragment.get?_ofFields distinct found, Fragment.get?_ofFields distinct listed, own]
    constructor
    · intro fragment shown
      rcases other.schema_of_fragment? shown with ⟨object, inlined⟩
      refine ⟨object, inlined, ?_⟩
      rw [shown, Option.bind_some, inlined, Schema.object?, Option.getD_some]
    · intro omitted
      rw [omitted, Option.bind_none, Option.getD_none]
  · intro rule entered last chain
    constructor
    · intro value name strict equal
      exact chain.reachable?_eq acyclic equal
    · intro defaults
      rw [convert_builtin, convert_builtin, chain.fragment?_eq acyclic]

end MapperTable

/-! ## A field that is equal to a field that is equal to a third -/

theorem Rule.AsksFor.eq_of_equal {rule : Rule} {name field : String} {value : Option Json}
    {strict : Bool} (equal : rule.kind = .equal value (some field) strict)
    (asks : rule.AsksFor name) : name = field := by
  cases asks with
  | equal same =>
    rw [equal] at same
    cases same
    rfl
  | inner inside _ =>
    rw [equal] at inside
    cases inside

/-- A password that is asked for three times. -/
def Rule.passwords : Entries Rule :=
  [("password", .text),
    ("repeated", { Rule.sameAs "password" with notes := { description := some "Once more." } }),
    ("confirmed", { Rule.sameAs "repeated" with nullable := true })]

theorem Rule.acyclic_passwords : passwords.Acyclic := by
  apply Entries.acyclic_of_rank fun name => ["password", "repeated", "confirmed"].idxOf name
  rintro field sibling ⟨rule, found, asks, known⟩
  have listed := Entries.mem_of_get?_eq_some found
  simp only [passwords, List.mem_cons, Prod.mk.injEq, List.not_mem_nil, or_false] at listed
  rcases listed with ⟨rfl, rfl⟩ | ⟨rfl, rfl⟩ | ⟨rfl, rfl⟩
  · rcases asks with same | ⟨inside, _⟩
    · cases same
    · cases inside
  · rw [asks.eq_of_equal rfl]
    decide
  · rw [asks.eq_of_equal rfl]
    decide

theorem MapperTable.equal_field_follows_sibling_passwords :
    (Rule.passwords.names.Nodup ∧ Rule.passwords.Acyclic) ∧
      ∃ fragments, builtin.convertFields Rule.passwords = .ok fragments ∧
        fragments.get? "confirmed" = some
          { schema := .inline
              { TextLimits.schema {} with description := some "Once more.", nullable := true },
            optional := false } := by
  have distinct : Rule.passwords.names.Nodup := by decide
  have password : (Fragment.ofFields Rule.passwords).get? "password" =
      some { schema := .inline (TextLimits.schema {}), optional := false } := by
    rw [Fragment.get?_ofFields distinct rfl]
    exact Rule.fragment?_text _
  rcases equal_field_follows_sibling distinct Rule.acyclic_passwords with
    ⟨fragments, converted, follows, -⟩
  rw [convertFields_builtin, Except.ok.injEq] at converted
  subst converted
  rcases (follows "repeated" "password" _ _ _ rfl rfl (by decide)).1 _ password with
    ⟨text, textShown, repeated⟩
  rcases (follows "confirmed" "repeated" _ _ _ rfl rfl (by decide)).1 _ repeated with
    ⟨object, objectShown, confirmed⟩
  refine ⟨⟨distinct, Rule.acyclic_passwords⟩, _, convertFields_builtin _, ?_⟩
  cases textShown
  cases objectShown
  exact confirmed

end RouteDocs
