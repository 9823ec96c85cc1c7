import RouteDocs.Proofs.Convert.Termination

namespace RouteDocs

/-!
# The conversion with the built-in table

The built-in table has a mapper for every kind of rule, so no conversion with
it fails.  What is left when failures are out of the way is a function from
rules to fragments, `Rule.fragment?`, and one equation about it: the schema of a
rule has the shape of its kind, around what the rules inside it, the fields of
an object and the sibling of an equal rule are converted to.

The equation is proved along the calls of a conversion, and it is the only
place where the conversion is opened; everything else about converted rules
follows from it.
-/

/-- What the built-in table makes of a rule; nothing where it does not appear. -/
def Rule.fragment? (rule : Rule) (defaults : Notes) (scope : Scope) : Option Fragment :=
  match MapperTable.builtin.convert rule defaults scope with
  | .ok fragment? => fragment?
  | .error _ => none

/-- What a field of the scope is converted to where it is entered. -/
def Scope.fragment? (scope : Scope) (field : String) : Option Fragment :=
  (scope.reachable? field).bind fun rule => rule.fragment? {} (scope.enter field)

theorem Scope.reachable?_of_fresh {scope : Scope} {name : String} (fresh : name ∉ scope.resolving) :
    scope.reachable? name = scope.siblings.get? name := by
  have unseen : scope.resolving.contains name = false := by
    simp only [List.contains_eq_mem, decide_eq_false_iff_not]
    exact fresh
  simp only [reachable?, unseen, Bool.false_eq_true, if_false]

theorem Scope.fragment?_of_reached {scope : Scope} {name : String} {rule : Rule}
    (reached : scope.reachable? name = some rule) :
    scope.fragment? name = rule.fragment? {} (scope.enter name) := by
  rw [fragment?, reached, Option.bind_some]

theorem Scope.fragment?_of_absent {scope : Scope} {name : String}
    (absent : scope.siblings.get? name = none) : scope.fragment? name = none := by
  simp only [fragment?, reachable?, absent, ite_self, Option.bind_none]

/-- The schemas of those members that appear. -/
def Fragment.schemasOf (convert : Rule → Option Fragment) (members : List Rule) : List Schema :=
  members.filterMap fun member => (convert member).map Fragment.schema

/-- The named fragments of those fields that appear. -/
def Fragment.ofEntries (entries : Entries Rule) (scope : Scope) : Entries Fragment :=
  entries.filterMap fun field =>
    (field.2.fragment? {} scope).map fun fragment => (field.1, fragment)

theorem Fragment.mem_ofEntries {entries : Entries Rule} {scope : Scope} {name : String}
    {fragment : Fragment} :
    (name, fragment) ∈ Fragment.ofEntries entries scope ↔
      ∃ rule, (name, rule) ∈ entries ∧ rule.fragment? {} scope = some fragment := by
  simp only [ofEntries, List.mem_filterMap, Option.map_eq_some_iff, Prod.mk.injEq]
  constructor
  · rintro ⟨⟨_, rule⟩, declared, _, converted, rfl, rfl⟩
    exact ⟨rule, declared, converted⟩
  · rintro ⟨rule, declared, converted⟩
    exact ⟨(name, rule), declared, fragment, converted, rfl, rfl⟩

/-- The fragment of the field that is found under a name is found under it too. -/
theorem Fragment.get?_ofEntries_eq_some {entries : Entries Rule} {scope : Scope} {name : String}
    {rule : Rule} {fragment : Fragment} (found : entries.get? name = some rule)
    (converted : rule.fragment? {} scope = some fragment) :
    (ofEntries entries scope).get? name = some fragment := by
  induction entries with
  | nil => cases found
  | cons field rest inductionHypothesis =>
    rcases field with ⟨key, own⟩
    by_cases same : key = name
    · simp only [Entries.get?, same, if_true, Option.some.injEq] at found
      simp only [ofEntries, List.filterMap_cons, found, converted, Option.map_some, Entries.get?,
        same, if_true]
    · simp only [Entries.get?, same, if_false] at found
      have later := inductionHypothesis found
      cases shown : own.fragment? {} scope with
      | none => simpa only [ofEntries, List.filterMap_cons, shown, Option.map_none] using later
      | some first =>
        simpa only [ofEntries, List.filterMap_cons, shown, Option.map_some, Entries.get?, same,
          if_false] using later

/-- The fragments of fields that may refer to each other. -/
def Fragment.ofFields (fields : Entries Rule) : Entries Fragment :=
  Fragment.ofEntries fields (.ofFields fields)

namespace RuleKind

/-- The mapper that serves a kind in the built-in table. -/
def mapper (kind : RuleKind) : Mapper :=
  match MapperTable.builtin.mapperFor kind.tag with
  | .ok (.own mapper) => mapper
  | _ => .omitted

/-- The schema of a kind, given what the rules among the same fields and the
siblings are converted to. -/
def shape? (kind : RuleKind) (inner : Rule → Option Fragment)
    (sibling : String → Option Fragment) : Option SchemaObject :=
  match kind with
  | .array items limits => some (limits.schema ((items.bind inner).map Fragment.schema))
  | .object declared limits => some (limits.schema (Fragment.ofFields (declared.getD [])))
  | .record _ value => some (.record ((value.bind inner).map Fragment.schema))
  | .tuple members => some (.tuple members.length (Fragment.schemasOf inner members))
  | .multi members =>
    if (Fragment.schemasOf inner members).isEmpty then none
    else some (.oneOfThese (Fragment.schemasOf inner members))
  | .equal value field strict =>
    some (((field.bind sibling).bind fun found => found.schema.object?).getD
      (.constant value strict))
  | kind => kind.mapper.plainSchema kind

/-- The shape depends only on the rules inside the kind and on the sibling it is equal to. -/
theorem shape?_congr {kind : RuleKind} {inner others : Rule → Option Fragment}
    {sibling another : String → Option Fragment}
    (sameInner : ∀ part ∈ kind.inner, inner part = others part)
    (sameSibling : ∀ value name strict, kind = .equal value (some name) strict →
      sibling name = another name) :
    kind.shape? inner sibling = kind.shape? others another := by
  have sameSchemas : Fragment.schemasOf inner kind.inner = Fragment.schemasOf others kind.inner :=
    List.filterMap_congr fun part inside => congrArg (Option.map _) (sameInner part inside)
  cases kind with
  | array items limits =>
    cases items with
    | none => rfl
    | some items =>
      have same := sameInner items (List.mem_singleton.mpr rfl)
      simp only [shape?, Option.bind_some, same]
  | record key value =>
    cases value with
    | none => rfl
    | some value =>
      have same := sameInner value (List.mem_singleton.mpr rfl)
      simp only [shape?, Option.bind_some, same]
  | tuple members =>
    change Fragment.schemasOf inner members = Fragment.schemasOf others members at sameSchemas
    simp only [shape?, sameSchemas]
  | multi members =>
    change Fragment.schemasOf inner members = Fragment.schemasOf others members at sameSchemas
    simp only [shape?, sameSchemas]
  | equal value field strict =>
    cases field with
    | none => rfl
    | some name => simp only [shape?, Option.bind_some, sameSibling value name strict rfl]
  | _ => rfl

end RuleKind

namespace MapperTable

/-- A conversion with the built-in table that does not fail. -/
def Succeeds (conversion : Conversion) : Prop :=
  ∀ defaults, builtin.convert conversion.rule defaults conversion.scope =
    .ok (conversion.rule.fragment? defaults conversion.scope)

theorem succeeds_of_eq_ok {rule : Rule} {scope : Scope} {result : Notes → Option Fragment}
    (converted : ∀ defaults, builtin.convert rule defaults scope = .ok (result defaults)) :
    Succeeds ⟨rule, scope⟩ := by
  intro defaults
  rw [Rule.fragment?, converted defaults]

theorem convertMembers_builtin {members : List Rule} {scope : Scope}
    (each : ∀ member ∈ members, Succeeds ⟨member, scope⟩) :
    builtin.convertMembers members scope =
      .ok (Fragment.schemasOf (fun member => member.fragment? {} scope) members) := by
  induction members with
  | nil =>
    rw [convertMembers]
    rfl
  | cons member rest inductionHypothesis =>
    have first : builtin.convert member {} scope = .ok (member.fragment? {} scope) :=
      each member List.mem_cons_self {}
    have others := inductionHypothesis fun other listed =>
      each other (List.mem_cons_of_mem member listed)
    rw [convertMembers, first, others]
    cases shown : member.fragment? {} scope <;> simp [Fragment.schemasOf, shown, Except.map]

theorem convertEntries_builtin {entries : Entries Rule} {scope : Scope}
    (each : ∀ field ∈ entries, Succeeds ⟨field.2, scope⟩) :
    builtin.convertEntries entries scope = .ok (Fragment.ofEntries entries scope) := by
  induction entries with
  | nil =>
    rw [convertEntries]
    rfl
  | cons field rest inductionHypothesis =>
    rcases field with ⟨name, rule⟩
    have first : builtin.convert rule {} scope = .ok (rule.fragment? {} scope) :=
      each (name, rule) List.mem_cons_self {}
    have others := inductionHypothesis fun other listed =>
      each other (List.mem_cons_of_mem (name, rule) listed)
    rw [convertEntries, first, others]
    cases shown : rule.fragment? {} scope <;> simp [Fragment.ofEntries, shown, Except.map]

theorem mapperFor_builtin (kind : RuleKind) : builtin.mapperFor kind.tag = .ok kind.mapper := by
  cases kind <;> rfl

/-- The schema of a kind has its shape, when what the kind asks for succeeds. -/
theorem convertKind_builtin {kind : RuleKind} {scope : Scope}
    (inner : ∀ part ∈ kind.inner, Succeeds ⟨part, scope⟩)
    (fields : ∀ field ∈ kind.fields, Succeeds ⟨field.2, .ofFields kind.fields⟩)
    (siblings : ∀ value name strict rule, kind = .equal value (some name) strict →
      scope.reachable? name = some rule → Succeeds ⟨rule, scope.enter name⟩) :
    builtin.convertKind kind.mapper kind scope =
      .ok (kind.shape? (fun part => part.fragment? {} scope) scope.fragment?) := by
  cases kind with
  | array items limits =>
    change builtin.convertKind .array (.array items limits) scope = _
    cases items with
    | none =>
      rw [convertKind]
      rfl
    | some items =>
      have converted : builtin.convert items {} scope = .ok (items.fragment? {} scope) :=
        inner items (List.mem_singleton.mpr rfl) {}
      rw [convertKind, converted]
      rfl
  | object declared limits =>
    change builtin.convertKind .object (.object declared limits) scope = _
    cases declared with
    | none =>
      rw [convertKind]
      rfl
    | some declared =>
      have converted : builtin.convertEntries declared (.ofFields declared) =
          .ok (Fragment.ofFields declared) := convertEntries_builtin fields
      rw [convertKind, converted]
      rfl
  | record key value =>
    change builtin.convertKind .record (.record key value) scope = _
    cases value with
    | none =>
      simp only [convertKind]
      rfl
    | some value =>
      have converted : builtin.convert value {} scope = .ok (value.fragment? {} scope) :=
        inner value (List.mem_singleton.mpr rfl) {}
      rw [convertKind, converted]
      rfl
  | tuple members =>
    have converted : builtin.convertMembers members scope = .ok (Fragment.schemasOf _ members) :=
      convertMembers_builtin inner
    change builtin.convertKind .tuple (.tuple members) scope = _
    rw [convertKind, converted]
    rfl
  | multi members =>
    have converted : builtin.convertMembers members scope = .ok (Fragment.schemasOf _ members) :=
      convertMembers_builtin inner
    change builtin.convertKind .multi (.multi members) scope = _
    rw [convertKind, converted]
    rfl
  | equal value name strict =>
    change builtin.convertKind .equal (.equal value name strict) scope = _
    cases name with
    | none =>
      rw [convertKind]
      rfl
    | some name =>
      rw [convertKind]
      split
      · next unreachable =>
        simp only [RuleKind.shape?, Scope.fragment?, unreachable, Option.bind_some,
          Option.bind_none, Option.getD_none]
      · next rule reached =>
        have converted : builtin.convert rule {} (scope.enter name) =
            .ok (rule.fragment? {} (scope.enter name)) := siblings value name strict rule rfl reached {}
        simp only [RuleKind.shape?, Scope.fragment?, reached, Option.bind_some, converted,
          Except.map]
  | _ =>
    simp only [RuleKind.shape?, RuleKind.mapper, RuleKind.tag, mapperFor, builtin, builtinMapper,
      Option.map_some, Option.map_none, settle, base, if_true, convertKind]

/-- A conversion whose calls succeed succeeds, with the shape of the kind of the rule. -/
theorem convert_of_calls {rule : Rule} {scope : Scope}
    (calls : ∀ inner, (Conversion.mk rule scope).Calls inner → Succeeds inner)
    (defaults : Notes) :
    builtin.convert rule defaults scope =
      .ok ((rule.kind.shape? (fun part => part.fragment? {} scope) scope.fragment?).map
        (rule.finish defaults)) := by
  have shaped : builtin.convertKind rule.kind.mapper rule.kind scope =
      .ok (rule.kind.shape? (fun part => part.fragment? {} scope) scope.fragment?) := by
    apply convertKind_builtin
    · intro part inside
      exact calls _ (.inner inside)
    · intro field declared
      exact calls _ (.field declared)
    · intro value name strict sibling equal reached
      exact calls _ (.sibling equal reached)
  rcases rule with ⟨kind, optional, nullable, fallback, notes⟩
  rw [convert, mapperFor_builtin]
  simp only [shaped, Except.map]

/-- No conversion with the built-in table fails. -/
theorem succeeds (conversion : Conversion) : Succeeds conversion := by
  apply Conversion.wellFounded_calls.induction conversion
  rintro ⟨rule, scope⟩ inductionHypothesis
  exact succeeds_of_eq_ok (convert_of_calls inductionHypothesis)

theorem convert_builtin (rule : Rule) (defaults : Notes) (scope : Scope) :
    builtin.convert rule defaults scope = .ok (rule.fragment? defaults scope) :=
  succeeds ⟨rule, scope⟩ defaults

theorem convertFields_builtin (fields : Entries Rule) :
    builtin.convertFields fields = .ok (Fragment.ofFields fields) :=
  convertEntries_builtin fun field _ => succeeds ⟨field.2, .ofFields fields⟩

end MapperTable

/-- The equation of the built-in conversion: what a rule is converted to has the
shape of its kind, and is finished with what the rule says besides its kind. -/
theorem Rule.fragment?_eq (rule : Rule) (defaults : Notes) (scope : Scope) :
    rule.fragment? defaults scope =
      (rule.kind.shape? (fun part => part.fragment? {} scope) scope.fragment?).map
        (rule.finish defaults) := by
  apply Except.ok.inj
  rw [← MapperTable.convert_builtin]
  exact MapperTable.convert_of_calls (fun inner _ => MapperTable.succeeds inner) defaults

/-- What the built-in table makes of a rule is written out in place. -/
theorem Rule.schema_of_fragment? (rule : Rule) {defaults : Notes} {scope : Scope}
    {fragment : Fragment} (shown : rule.fragment? defaults scope = some fragment) :
    ∃ object, fragment.schema = .inline object := by
  rw [fragment?_eq] at shown
  rcases Option.map_eq_some_iff.mp shown with ⟨object, _, rfl⟩
  exact ⟨_, rfl⟩

/-- A rule that asks for equality with a sibling has the shape of what the sibling
is converted to, or that of its constant where nothing is. -/
theorem Rule.shape_of_equal {inner : Rule → Option Fragment} {scope : Scope} {value : Option Json}
    {name : String} {strict : Bool} {shape : SchemaObject}
    (shaped : (RuleKind.equal value (some name) strict).shape? inner scope.fragment? = some shape) :
    (∃ other found, scope.reachable? name = some other ∧
      other.fragment? {} (scope.enter name) = some found ∧ found.schema = .inline shape) ∨
    scope.fragment? name = none ∧ shape = .constant value strict := by
  simp only [RuleKind.shape?, Option.bind_some] at shaped
  cases shown : scope.fragment? name with
  | none =>
    rw [shown] at shaped
    cases shaped
    exact Or.inr ⟨rfl, rfl⟩
  | some found =>
    obtain ⟨other, reached, converted⟩ := Option.bind_eq_some_iff.mp shown
    obtain ⟨object, same⟩ := other.schema_of_fragment? converted
    rw [shown, Option.bind_some, same] at shaped
    cases shaped
    exact Or.inl ⟨other, found, reached, converted, same⟩

theorem Rule.fragment?_text (scope : Scope) :
    Rule.text.fragment? {} scope =
      some { schema := .inline (TextLimits.schema {}), optional := false } := by
  rw [fragment?_eq]
  rfl

theorem Rule.fragment?_object (fields : Entries Rule) (scope : Scope) :
    (Rule.object fields).fragment? {} scope =
      some { schema := .inline (ObjectLimits.schema {} (Fragment.ofFields fields)), optional := false } := by
  rw [fragment?_eq]
  rfl

namespace MapperTable

/-- With the built-in table every conversion comes to an end, and none fails,
whatever the scope holds.  Inside one scope a chain of conversions enters no
field twice, so it enters at most as many siblings as the scope has fields. -/
theorem conversion_ends_without_fault :
    (WellFounded fun inner outer : Conversion => outer.Calls inner) ∧
    (∀ (rule : Rule) (defaults : Notes) (scope : Scope),
      ∃ fragment?, builtin.convert rule defaults scope = .ok fragment?) ∧
    (∀ fields : Entries Rule, ∃ fragments, builtin.convertFields fields = .ok fragments) ∧
    ∀ (outer last : Conversion) (entered : List String), outer.Chain entered last →
      entered.Nodup ∧ entered ⊆ outer.scope.siblings.names ∧
        entered.length ≤ outer.scope.siblings.length := by
  refine ⟨Conversion.wellFounded_calls, ?_, ?_, ?_⟩
  · intro rule defaults scope
    exact ⟨_, convert_builtin rule defaults scope⟩
  · intro fields
    exact ⟨_, convertFields_builtin fields⟩
  · intro outer last entered chain
    exact ⟨chain.nodup.1, chain.nodup.2, chain.length_le⟩

end MapperTable

/-! ## Two fields that are equal to each other -/

/-- A rule that asks for equality with another field. -/
def Rule.sameAs (name : String) : Rule :=
  { kind := .equal none (some name) false }

namespace MapperTable

/-- The fields of a circle are entered once each. -/
theorem conversion_ends_without_fault_circle :
    let circle : Entries Rule := [("a", .sameAs "b"), ("b", .sameAs "a")]
    ∃ last, (Conversion.mk (.sameAs "b") (.ofFields circle)).Chain ["b", "a"] last ∧
      ["b", "a"].length ≤ circle.length ∧
      ∃ fragments, builtin.convertFields circle = .ok fragments := by
  intro circle
  have chain : (Conversion.mk (.sameAs "b") (.ofFields circle)).Chain (([] ++ ["b"]) ++ ["a"])
      ⟨.sameAs "b", ((Scope.ofFields circle).enter "b").enter "a"⟩ :=
    .sibling (.sibling .start rfl rfl) rfl rfl
  have ends := conversion_ends_without_fault
  exact ⟨_, chain, (ends.2.2.2 _ _ _ chain).2.2, ends.2.2.1 circle⟩

end MapperTable
end RouteDocs
