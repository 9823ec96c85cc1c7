import RouteDocs.Proofs.Rule.Reading
import RouteDocs.Proofs.Rule.Shorthand
import RouteDocs.Rule.Params

namespace RouteDocs

/-!
# The fields of rules that are read

The names of the fields of an object are keys, and the object they are keys of is
not always the one that is read: without a type it is, with the type of objects it
is what is declared inside it, and a shorthand has none.  `Json.fieldObject` says
which object it is and `Json.nestedRules` which values are nested, whether they are
read or not.  `Rule.NamedAfter` then pairs a rule with the value that it is read
from, down to the innermost rules: in every pair the fields are the ordinary keys
of the object, in the order of the object.

Every reader of nested values goes to an object of its own, so it is not enough that
the outermost reader leaves the reserved keys out.
-/

/-- The values that an option lists. -/
def Options.listed (options : Options) (name : String) : List Json :=
  match options.given? name with
  | some (.list items) => items
  | _ => []

namespace Json

/-- The object that the fields of a rule are keys of: the object itself when it has no
type, and what it declares when its type is that of objects. -/
def fieldObject (value : Json) : Entries Json :=
  match value with
  | .object entries =>
    match Entries.get? entries "type" with
    | none => entries
    | some (.text name) =>
      match RuleTag.ofName? name with
      | some .object =>
        match (Entries.get? entries "properties").or (Entries.get? entries "props") with
        | some (.object declared) => declared
        | _ => []
      | _ => []
    | some _ => []
  | _ => []

/-- The rules inside a value that are not those of fields: alternatives, items, the key
and the value of a record, and members. -/
def innerRules (value : Json) : List Json :=
  match value with
  | .list alternatives => alternatives
  | .object entries =>
    match Entries.get? entries "type" with
    | some (.text name) =>
      match RuleTag.ofName? name with
      | some .array => (Options.given? entries "items").toList
      | some .multi => Options.listed entries "rules"
      | some .record =>
        (Options.given? entries "key").toList ++ (Options.given? entries "value").toList
      | some .tuple => Options.listed entries "items"
      | _ => []
    | _ => []
  | _ => []

/-- All rules inside a value, in the order in which they are read. -/
def nestedRules (value : Json) : List Json :=
  value.innerRules ++ value.fieldObject.ordinary.values

end Json

namespace Rule

/-- A rule whose fields are named as in the value that it is read from, and so are the
rules inside it, each after the value in its place.  A shorthand names no fields,
neither in its rule nor inside it. -/
inductive NamedAfter : Json → Rule → Prop where
  | shorthand {text : String} {rule : Rule}
      (noFields : rule.Everywhere fun inside => inside.kind.fields = []) :
      NamedAfter (.text text) rule
  | value {value : Json} {rule : Rule}
      (names : rule.kind.fields.names = value.fieldObject.ordinary.names)
      (nested : List.Forall₂ NamedAfter value.nestedRules rule.kind.nested) :
      NamedAfter value rule

/-- None of the fields has a reserved name. -/
def NoReservedField (rule : Rule) : Prop :=
  ∀ name ∈ rule.kind.fields.names, isReserved name = false

end Rule

/-! ## The fields of a rule that is put together -/

namespace RuleParts

variable {ρ : Type}

/-- The fields among what is nested. -/
def named (parts : RuleParts ρ) : Entries ρ :=
  match parts with
  | .fields named => named.getD []
  | _ => []

theorem ReadEach.names {read : Json → Except RuleFault Rule} {parts : RuleParts Json}
    {rules : RuleParts Rule} (each : ReadEach read parts rules) :
    rules.named.names = parts.named.names := by
  cases each with
  | fields names _ => exact names
  | _ => rfl

theorem listed_of_members {options : Options} {name : String} {items : List Json}
    (read : options.members name = .ok items) : options.listed name = items := by
  rcases Except.eq_ok_of_map_eq_ok read with ⟨items?, found, rfl⟩
  unfold Options.readWith at found
  unfold Options.listed
  split at found
  · next absent =>
    cases found
    rw [absent]
    rfl
  · next value given =>
    rw [given]
    cases value with
    | list items =>
      cases found
      rfl
    | _ => cases found

/-- What is taken out of an object with a type is nested in it. -/
theorem nested_of_ofOptions {name : String} {options : Options} {parts : RuleParts Json}
    (typed : Entries.get? options "type" = some (.text name))
    (found : ofOptions name options = .ok parts) :
    parts.named = (Json.object options).fieldObject.ordinary ∧
      parts.nested = (Json.object options).nestedRules := by
  simp only [Json.nestedRules, Json.innerRules, Json.fieldObject, typed]
  unfold ofOptions at found
  generalize RuleTag.ofName? name = tag? at found ⊢
  have members : ∀ key, (options.members key).map RuleParts.members = .ok parts →
      parts.named = [] ∧ parts.nested = options.listed key ++ [] := by
    intro key mapped
    rcases Except.eq_ok_of_map_eq_ok mapped with ⟨rules, read, rfl⟩
    rw [listed_of_members read, List.append_nil]
    exact ⟨rfl, rfl⟩
  cases tag? with
  | none =>
    cases found
    exact ⟨rfl, rfl⟩
  | some tag =>
    cases tag with
    | array =>
      cases found
      exact ⟨rfl, (List.append_nil _).symm⟩
    | multi => exact members "rules" found
    | tuple => exact members "items" found
    | record =>
      cases found
      exact ⟨rfl, (List.append_nil _).symm⟩
    | object =>
      rcases Except.eq_ok_of_map_eq_ok found with ⟨declared, read, rfl⟩
      unfold Options.fields at read
      split at read
      · next absent =>
        cases read
        rw [absent]
        exact ⟨rfl, rfl⟩
      · next entries given =>
        cases read
        rw [given]
        exact ⟨rfl, rfl⟩
      · cases read
    | _ =>
      cases found
      exact ⟨rfl, rfl⟩

end RuleParts

/-- What is put together from its parts holds them in their order. -/
theorem RuleKind.nested_of_assemble {name : String} {options : Options} {parts : RuleParts Json}
    {rules : RuleParts Rule} {read : Json → Except RuleFault Rule}
    (found : RuleParts.ofOptions name options = .ok parts) (each : parts.ReadEach read rules)
    {kind : RuleKind} (assembled : RuleKind.assemble name options rules = .ok kind) :
    kind.fields = rules.named ∧ kind.nested = rules.nested := by
  unfold RuleParts.ofOptions at found
  unfold RuleKind.assemble at assembled
  generalize RuleTag.ofName? name = tag? at found assembled
  cases tag? with
  | none =>
    cases found
    cases each
    cases assembled
    exact ⟨rfl, rfl⟩
  | some tag =>
    cases tag with
    | array =>
      cases found
      cases each
      rcases Except.eq_ok_of_map_eq_ok assembled with ⟨limits, -, rfl⟩
      exact ⟨rfl, List.append_nil _⟩
    | multi | tuple =>
      rcases Except.eq_ok_of_map_eq_ok found with ⟨values, -, rfl⟩
      cases each
      cases assembled
      exact ⟨rfl, List.append_nil _⟩
    | record =>
      cases found
      cases each
      cases assembled
      exact ⟨rfl, rfl⟩
    | object =>
      rcases Except.eq_ok_of_map_eq_ok found with ⟨declared, -, rfl⟩
      rcases Except.eq_ok_of_map_eq_ok assembled with ⟨limits, -, rfl⟩
      cases each with
      | noFields => exact ⟨rfl, rfl⟩
      | fields names each => exact ⟨rfl, rfl⟩
    | equal =>
      cases found
      cases each
      rcases Except.eq_ok_of_bind_eq_ok assembled with ⟨field, -, afterField⟩
      rcases Except.eq_ok_of_bind_eq_ok afterField with ⟨strict, -, same⟩
      cases same
      exact ⟨rfl, rfl⟩
    | currency | date | enumeration | number | text | uuid =>
      cases found
      cases each
      rcases Except.eq_ok_of_map_eq_ok assembled with ⟨_, -, rfl⟩
      exact ⟨rfl, rfl⟩
    | _ =>
      cases found
      cases each
      cases assembled
      exact ⟨rfl, rfl⟩

/-- The fields of a kind are fields that are nested. -/
theorem RuleKind.fields_eq_nil_of_assemble {name : String} {options : Options}
    {rules : RuleParts Rule} {kind : RuleKind} (noFields : rules.fieldRules? = none)
    (assembled : RuleKind.assemble name options rules = .ok kind) : kind.fields = [] := by
  unfold RuleKind.assemble at assembled
  generalize RuleTag.ofName? name = tag? at assembled
  cases tag? with
  | none =>
    cases assembled
    rfl
  | some tag =>
    cases tag with
    | object =>
      rcases Except.eq_ok_of_map_eq_ok assembled with ⟨limits, -, rfl⟩
      rw [noFields]
      rfl
    | equal =>
      rcases Except.eq_ok_of_bind_eq_ok assembled with ⟨field, -, afterField⟩
      rcases Except.eq_ok_of_bind_eq_ok afterField with ⟨strict, -, same⟩
      cases same
      rfl
    | array | currency | date | enumeration | number | text | uuid =>
      rcases Except.eq_ok_of_map_eq_ok assembled with ⟨_, -, rfl⟩
      rfl
    | _ =>
      cases assembled
      rfl

namespace Rule

/-- The values of options in a shorthand are no objects, so nothing declares fields. -/
theorem noFields_reading : ReadingCondition (fun value => ∀ entries, value ≠ .object entries)
    fun rule => rule.kind.fields = [] where
  shorthand raw := (Shorthand.isScalar_value raw).2
  assembled name options parts rule _ names assembled := by
    apply RuleKind.fields_eq_nil_of_assemble _ (assemble_eq_ok assembled).1
    cases given : parts.fieldRules? with
    | none => rfl
    | some fields =>
      rcases names fields given with ⟨entries, admitted, -⟩
      exact absurd rfl (admitted entries)
  list _ _ _ _ _ _ := rfl
  members _ := rfl
  untyped := rfl
  nested _ _ _ _ names := by
    rcases names with ⟨entries, admitted, -⟩
    exact absurd rfl (admitted entries)

/-! ## The rules that are read -/

/-- Every rule that is read has its fields from the value that it is read from. -/
theorem namedAfter_of_read {value : Json} {rule : Rule} (succeeded : Rule.read value = .ok rule) :
    rule.NamedAfter value := by
  -- By recursion on the weight of the value, which bounds that of everything nested in it.
  have each : ∀ values rules, (∀ source ∈ values, source.weight < value.weight) →
      List.Forall₂ (fun source part => Rule.read source = .ok part) values rules →
        List.Forall₂ NamedAfter values rules := by
    intro values rules lighter read
    refine ((List.forall₂_and_left values rules).mpr ⟨lighter, read⟩).imp fun source part both => ?_
    have smaller := both.1
    exact namedAfter_of_read both.2
  cases value with
  | text shorthand =>
    rw [Rule.read] at succeeded
    apply NamedAfter.shorthand
    exact noFields_reading.everywhere_of_ofShorthand succeeded
  | list alternatives =>
    rw [Rule.read] at succeeded
    rcases Except.eq_ok_of_map_eq_ok succeeded with ⟨members, found, rfl⟩
    refine .value rfl ?_
    rw [RuleKind.nested_multi, show (Json.list alternatives).nestedRules = alternatives from
      List.append_nil alternatives]
    exact each _ _ (fun _ listed => Json.weight_lt_of_mem_parts listed) (readMembers_eq_ok_iff.mp found)
  | object entries =>
    cases typed : Entries.get? entries "type" with
    | none =>
      rcases (read_untyped_iff typed).mp succeeded with ⟨own, fields, notes, -, declared, -, rfl⟩
      have whole : (Json.object entries).fieldObject = entries := by
        simp only [Json.fieldObject, typed]
      have nested : (Json.object entries).nestedRules = (Entries.ordinary entries).values := by
        simp only [Json.nestedRules, Json.innerRules, typed, whole]
        rfl
      refine .value ?_ ?_
      · rw [whole]
        exact names_of_forall₂_readsAs declared
      · rw [nested]
        refine each _ _ (fun source listed => ?_) (values_of_forall₂_readsAs declared)
        rcases List.mem_map.mp listed with ⟨entry, kept, rfl⟩
        have present := (List.mem_filter.mp kept).1
        exact Json.weight_lt_of_mem_parts (List.mem_map_of_mem present)
    | some typeValue =>
      cases typeValue with
      | text name =>
        rw [read_typed typed] at succeeded
        rcases Except.eq_ok_of_bind_eq_ok succeeded with ⟨parts, found, afterParts⟩
        rcases Except.eq_ok_of_bind_eq_ok afterParts with ⟨rules, read, assembled⟩
        have readEach := readEach_of_readParts read
        rcases RuleParts.nested_of_ofOptions typed found with ⟨fields, nested⟩
        rcases RuleKind.nested_of_assemble found readEach (assemble_eq_ok assembled).1 with
          ⟨ofFields, ofNested⟩
        refine .value ?_ ?_
        · rw [ofFields, readEach.names, fields]
        · rw [ofNested, ← nested]
          refine each _ _ (fun source listed => ?_) readEach.nested
          have whole := RuleParts.weight_lt_of_ofOptions found
          have part := RuleParts.weight_le_of_mem_nested listed
          omega
      | _ =>
        rw [Rule.read] at succeeded
        simp only [typed] at succeeded
        cases succeeded
  | _ =>
    rw [Rule.read] at succeeded
    cases succeeded
termination_by value.weight

/-- Fields that are named after ordinary keys have no reserved names, at any depth. -/
theorem NamedAfter.noReservedField {value : Json} {rule : Rule} (named : rule.NamedAfter value) :
    rule.Everywhere NoReservedField := by
  refine NamedAfter.rec (motive_1 := fun _ rule _ => rule.Everywhere NoReservedField)
    (motive_2 := fun _ rules _ => ∀ part ∈ rules, part.Everywhere NoReservedField)
    ?shorthand ?value ?nil ?cons named
  case shorthand =>
    intro _ rule noFields
    refine noFields.imp fun inside none name member => ?_
    rw [none] at member
    cases member
  case value =>
    intro value rule names _ inside
    refine .intro (fun name member => ?_) inside
    rw [names] at member
    exact Entries.isReserved_of_mem_ordinary name member
  case nil => exact List.forall_mem_nil _
  case cons =>
    intro _ _ _ _ _ _ first others
    exact List.forall_mem_cons.mpr ⟨first, others⟩

/-- Reserved keys never become fields, and the fields are in the order of their keys:
the names of the fields of every object in a rule that is read are the ordinary keys of
the object they come from.  The same holds of fields that are read as parameters. -/
theorem fields_are_ordinary_keys :
    (∀ (value : Json) (rule : Rule), Rule.read value = .ok rule →
      rule.NamedAfter value ∧ rule.Everywhere NoReservedField) ∧
    ∀ (entries : Entries Json) (fields : Entries Rule) (notes : Notes),
      Params.read (.object entries) = .ok (.fields fields notes) →
        fields.names = entries.ordinary.names ∧
          List.Forall₂ NamedAfter entries.ordinary.values fields.values ∧
          (∀ name ∈ fields.names, isReserved name = false) ∧
          ∀ rule ∈ fields.values, rule.Everywhere NoReservedField := by
  have named : ∀ (value : Json) (rule : Rule), Rule.read value = .ok rule →
      rule.NamedAfter value := fun _ _ => namedAfter_of_read
  refine ⟨fun value rule read => ⟨named value rule read, (named value rule read).noReservedField⟩,
    fun entries fields notes read => ?_⟩
  have declared : List.Forall₂ ReadsAs entries.ordinary fields := by
    rw [Params.read] at read
    split at read
    · rcases Except.eq_ok_of_map_eq_ok read with ⟨rule, -, same⟩
      cases same
    · rcases Except.eq_ok_of_bind_eq_ok read with ⟨found, ofFields, afterFields⟩
      rcases Except.eq_ok_of_map_eq_ok afterFields with ⟨_, -, same⟩
      cases same
      exact readFields_eq_ok_iff.mp ofFields
  have names := names_of_forall₂_readsAs declared
  have values := values_of_forall₂_readsAs declared
  refine ⟨names, values.imp named, ?_, fun rule member => ?_⟩
  · rw [names]
    exact Entries.isReserved_of_mem_ordinary
  · rcases Except.exists_of_mem_forall₂ values member with ⟨value, -, same⟩
    exact (named value rule same).noReservedField

/-- A record of objects under names that are written as an object, and two parameters.  There
are reserved keys at every depth. -/
theorem fields_are_ordinary_keys_record :
    (({ kind := .record (some (.object [("k", .text)]))
          (some (.object [("z", .array .text), ("a", .number)])) } : Rule).NamedAfter
        (.object [("type", .text "record"),
          ("key", .object [("$$oa", .object []), ("k", .text "string")]),
          ("value", .object [("type", .text "object"), ("properties", .object
            [("z", .text "string[]"), ("$$z", .null), ("a", .text "number")])])]) ∧
      ({ kind := .record (some (.object [("k", .text)]))
          (some (.object [("z", .array .text), ("a", .number)])) } : Rule).Everywhere
        NoReservedField) ∧
    Params.read (.object [("$$type", .null), ("b", .text "string"), ("$$b", .text "string"),
        ("a", .list [.text "string", .text "number"])]) =
      .ok (.fields [("b", .text), ("a", { kind := .multi [.text, .number] })] {}) ∧
    List.Forall₂ NamedAfter [.text "string", .list [.text "string", .text "number"]]
      [.text, { kind := .multi [.text, .number] }] := by
  have text : Rule.read (.text "string") = .ok .text := by
    rw [Rule.read]
    rfl
  have number : Rule.read (.text "number") = .ok .number := by
    rw [Rule.read]
    rfl
  have list : Rule.read (.text "string[]") = .ok (.array .text) := by
    rw [Rule.read]
    rfl
  have key : Rule.read (.object [("$$oa", .object []), ("k", .text "string")]) =
      .ok (.object [("k", .text)]) :=
    (read_untyped_iff rfl).mpr ⟨_, _, _, rfl, .cons ⟨rfl, text⟩ .nil, rfl, rfl⟩
  have value : Rule.read (.object [("type", .text "object"), ("properties", .object
      [("z", .text "string[]"), ("$$z", .null), ("a", .text "number")])]) =
        .ok (.object [("z", .array .text), ("a", .number)]) := by
    have declared : List.Forall₂ ReadsAs [("z", .text "string[]"), ("a", .text "number")]
        [("z", .array .text), ("a", .number)] := .cons ⟨rfl, list⟩ (.cons ⟨rfl, number⟩ .nil)
    rw [read_typed rfl]
    change (readParts (.fields (some [("z", .text "string[]"), ("a", .text "number")]))).bind _ = _
    rw [readParts, readFields_eq_ok_iff.mpr declared]
    rfl
  have record : Rule.read (.object [("type", .text "record"),
      ("key", .object [("$$oa", .object []), ("k", .text "string")]),
      ("value", .object [("type", .text "object"), ("properties", .object
        [("z", .text "string[]"), ("$$z", .null), ("a", .text "number")])])]) =
      .ok { kind := .record (some (.object [("k", .text)]))
              (some (.object [("z", .array .text), ("a", .number)])) } := by
    rw [read_typed rfl]
    change (readParts (.record (some (.object [("$$oa", .object []), ("k", .text "string")]))
      (some (.object [("type", .text "object"), ("properties", .object
        [("z", .text "string[]"), ("$$z", .null), ("a", .text "number")])])))).bind _ = _
    rw [readParts, key, value]
    rfl
  have members : Rule.read (.list [.text "string", .text "number"]) =
      .ok { kind := .multi [.text, .number] } := by
    rw [Rule.read, readMembers_eq_ok_iff.mpr (.cons text (.cons number .nil))]
    rfl
  have params : Params.read (.object [("$$type", .null), ("b", .text "string"),
      ("$$b", .text "string"), ("a", .list [.text "string", .text "number"])]) =
      .ok (.fields [("b", .text), ("a", { kind := .multi [.text, .number] })] {}) := by
    have declared : List.Forall₂ ReadsAs
        [("b", .text "string"), ("a", .list [.text "string", .text "number"])]
        [("b", .text), ("a", { kind := .multi [.text, .number] })] :=
      .cons ⟨rfl, text⟩ (.cons ⟨rfl, members⟩ .nil)
    rw [Params.read, if_neg (by decide)]
    change (readFields [("b", .text "string"),
      ("a", .list [.text "string", .text "number"])]).bind _ = _
    rw [readFields_eq_ok_iff.mpr declared]
    rfl
  exact ⟨fields_are_ordinary_keys.1 _ _ record, params,
    (fields_are_ordinary_keys.2 _ _ _ params).2.1⟩

end Rule
end RouteDocs
