import RouteDocs.Proofs.Json.Parts
import RouteDocs.Proofs.Rule.Options
import RouteDocs.Proofs.Rule.Parts

namespace RouteDocs

/-!
# What holds throughout a rule that is read

Whatever form it is written in, a rule is put together from its options and the
rules that were read inside it.  A condition that holds of each rule when it is
put together from admitted values holds everywhere in a rule that is read from a
value admitted at every depth (`Rule.ReadingCondition.everywhere_of_read`).

The names of fields are always the keys of one object, without the reserved
ones.  A shorthand never names fields, because its options are scalar.
-/

/-- The entries whose keys are not reserved. -/
def Entries.ordinary {α : Type} (entries : Entries α) : Entries α :=
  entries.filter fun entry => !isReserved entry.1

theorem Entries.isReserved_of_mem_ordinary {α : Type} {entries : Entries α} :
    ∀ name ∈ entries.ordinary.names, isReserved name = false := by
  intro name member
  rcases List.mem_map.mp member with ⟨entry, kept, rfl⟩
  simpa only [Bool.not_eq_true'] using (List.mem_filter.mp kept).2

/-- The names are the keys of an admitted object that are not reserved. -/
def NamesRead (admits : Json → Prop) (names : List String) : Prop :=
  ∃ entries : Entries Json, admits (.object entries) ∧
    names = Entries.names (entries.filter fun entry => !isReserved entry.1)

/-- The condition holds of each rule that is put together from admitted values. -/
structure Rule.ReadingCondition (admits : Json → Prop) (condition : Rule → Prop) : Prop where
  /-- What a shorthand can write is admitted. -/
  shorthand : ∀ raw, admits (Shorthand.value raw)
  assembled : ∀ (name : String) (options : Options) (parts : RuleParts Rule) (rule : Rule),
    (∀ option ∈ options, option.2.Everywhere admits) →
      (∀ fields, parts.fieldRules? = some fields → NamesRead admits (Entries.names fields)) →
        Rule.assemble name options parts = .ok rule → condition rule
  /-- The brackets of a shorthand put an item into a list. -/
  list : ∀ (rule item : Rule) (items : Option Rule) (limits : ListLimits), condition rule →
    rule.kind = .array items limits → condition { rule with kind := .array (some item) limits }
  members : ∀ members, condition { kind := .multi members }
  untyped : condition { kind := .object none {} }
  /-- A nested object keeps the flags of the shorthand that types it. -/
  nested : ∀ (own : Rule) (fields : Entries Rule) (notes : Notes), condition own →
    NamesRead admits fields.names →
      condition { own with kind := .object (some fields) {}, notes := notes }

namespace RuleParts

variable {ρ : Type}

/-- All that is nested, in the order of reading. -/
def nested (parts : RuleParts ρ) : List ρ :=
  match parts with
  | .none => []
  | .items item => item.toList
  | .record key value => key.toList ++ value.toList
  | .members rules => rules
  | .fields named => (named.getD []).map Prod.snd

/-- What is nested is admitted, and so is the object that fields come from. -/
structure Admitted (admits : Json → Prop) (parts : RuleParts Json) : Prop where
  nested : ∀ value ∈ parts.nested, value.Everywhere admits
  names : ∀ entries, parts = .fields (some entries) → NamesRead admits (Entries.names entries)

/-- The rules are what is read from the nested values, the names are kept. -/
structure ReadBy (read : Json → Except RuleFault Rule) (parts : RuleParts Json)
    (rules : RuleParts Rule) : Prop where
  each : ∀ rule ∈ rules.nested, ∃ value ∈ parts.nested, read value = .ok rule
  names : ∀ fields, rules.fieldRules? = some fields →
    ∃ entries, parts = .fields (some entries) ∧ Entries.names fields = Entries.names entries

/-- In every place stands the rule that is read from the value in this place. -/
inductive ReadEach (read : Json → Except RuleFault Rule) : RuleParts Json → RuleParts Rule → Prop
  where
  | none : ReadEach read .none .none
  | items {item : Option Json} {rule : Option Rule}
      (each : List.Forall₂ (fun value rule => read value = .ok rule) item.toList rule.toList) :
      ReadEach read (.items item) (.items rule)
  | record {key value : Option Json} {keyRule rule : Option Rule}
      (ofKey : List.Forall₂ (fun value rule => read value = .ok rule) key.toList keyRule.toList)
      (ofValue : List.Forall₂ (fun value rule => read value = .ok rule) value.toList rule.toList) :
      ReadEach read (.record key value) (.record keyRule rule)
  | members {values : List Json} {rules : List Rule}
      (each : List.Forall₂ (fun value rule => read value = .ok rule) values rules) :
      ReadEach read (.members values) (.members rules)
  | noFields : ReadEach read (.fields Option.none) (.fields Option.none)
  | fields {entries : Entries Json} {fields : Entries Rule} (names : fields.names = entries.names)
      (each : List.Forall₂ (fun value rule => read value = .ok rule) entries.values fields.values) :
      ReadEach read (.fields (some entries)) (.fields (some fields))

variable {admits : Json → Prop} {parts : RuleParts Json} {rules : RuleParts Rule}

/-- What is nested is read one by one, in its order. -/
theorem ReadEach.nested {read : Json → Except RuleFault Rule} (each : ReadEach read parts rules) :
    List.Forall₂ (fun value rule => read value = .ok rule) parts.nested rules.nested := by
  cases each with
  | none => exact .nil
  | items each => exact each
  | record ofKey ofValue => exact List.rel_append ofKey ofValue
  | members each => exact each
  | noFields => exact .nil
  | fields names each => exact each

theorem ReadEach.readBy {read : Json → Except RuleFault Rule} (each : ReadEach read parts rules) :
    parts.ReadBy read rules where
  each _ member := Except.exists_of_mem_forall₂ each.nested member
  names fields given := by
    cases each with
    | fields names _ =>
      cases given
      exact ⟨_, rfl, names⟩
    | _ => cases given

theorem ReadBy.namesRead {read : Json → Except RuleFault Rule} (readBy : ReadBy read parts rules)
    (admitted : parts.Admitted admits) :
    ∀ fields, rules.fieldRules? = some fields → NamesRead admits (Entries.names fields) := by
  intro fields given
  rcases readBy.names fields given with ⟨entries, declared, same⟩
  rw [same]
  exact admitted.names entries declared

end RuleParts

namespace Options

variable {admits : Json → Prop} {options : Options}

theorem everywhere_of_given? (admitted : ∀ option ∈ options, option.2.Everywhere admits)
    {name : String} {value : Json} (given : options.given? name = some value) :
    value.Everywhere admits :=
  admitted _ (Entries.mem_of_get?_eq_some (get?_of_given? given))

/-- An option that is read is the reading of what is given, if anything is. -/
theorem given?_of_readWith {α : Type} {name : String} {form : OptionForm}
    {interpret : Json → Option α} {meaning : α}
    (read : options.readWith name form interpret = .ok (some meaning)) :
    ∃ value, options.given? name = some value ∧ interpret value = some meaning := by
  unfold readWith at read
  split at read
  · cases read
  · next value given =>
    split at read
    · next found interpreted =>
      cases read
      exact ⟨value, given, interpreted⟩
    · cases read

theorem everywhere_of_members (admitted : ∀ option ∈ options, option.2.Everywhere admits)
    {name : String} {rules : List Json} (read : options.members name = .ok rules) :
    ∀ rule ∈ rules, rule.Everywhere admits := by
  rcases Except.eq_ok_of_map_eq_ok read with ⟨items?, found, rfl⟩
  cases items? with
  | none => exact List.forall_mem_nil _
  | some items =>
    rcases given?_of_readWith found with ⟨value, given, interpreted⟩
    cases value with
    | list listed =>
      cases interpreted
      exact (everywhere_of_given? admitted given).inside
    | _ => cases interpreted

theorem namesRead_of_fields (admitted : ∀ option ∈ options, option.2.Everywhere admits)
    {entries : Entries Json} (read : options.fields = .ok (some entries)) :
    (∀ entry ∈ entries, entry.2.Everywhere admits) ∧ NamesRead admits entries.names := by
  unfold fields at read
  split at read
  · cases read
  · next declared found =>
    cases read
    have whole : (Json.object declared).Everywhere admits := by
      rcases Option.or_eq_some_iff.mp found with first | ⟨-, second⟩
      · exact admitted _ (Entries.mem_of_get?_eq_some first)
      · exact admitted _ (Entries.mem_of_get?_eq_some second)
    exact ⟨fun entry member => whole.entries entry (List.mem_filter.mp member).1,
      declared, whole.own, rfl⟩
  · cases read

end Options

namespace RuleParts

variable {admits : Json → Prop} {options : Options} {parts : RuleParts Json}
  {rules : RuleParts Rule}

theorem admitted_of_ofOptions (admitted : ∀ option ∈ options, option.2.Everywhere admits)
    {name : String} (read : ofOptions name options = .ok parts) : parts.Admitted admits := by
  have single : ∀ key, ∀ value ∈ options.given? key, value.Everywhere admits :=
    fun key value given => Options.everywhere_of_given? admitted given
  have members : ∀ key, (options.members key).map RuleParts.members = .ok parts →
      parts.Admitted admits := by
    intro key mapped
    rcases Except.eq_ok_of_map_eq_ok mapped with ⟨rules, found, rfl⟩
    exact ⟨Options.everywhere_of_members admitted found, fun _ impossible => by cases impossible⟩
  unfold ofOptions at read
  split at read
  · cases read
    refine ⟨fun value member => ?_, fun _ impossible => by cases impossible⟩
    exact single "items" value (Option.mem_toList.mp member)
  · exact members "rules" read
  · rcases Except.eq_ok_of_map_eq_ok read with ⟨named, found, rfl⟩
    cases named with
    | none => exact ⟨List.forall_mem_nil _, fun _ impossible => by cases impossible⟩
    | some entries =>
      rcases Options.namesRead_of_fields admitted found with ⟨inside, names⟩
      refine ⟨fun value member => ?_, fun _ same => by cases same; exact names⟩
      rcases List.mem_map.mp member with ⟨entry, listed, rfl⟩
      exact inside entry listed
  · cases read
    refine ⟨fun value member => ?_, fun _ impossible => by cases impossible⟩
    rcases List.mem_append.mp member with ofKey | ofValue
    · exact single "key" value (Option.mem_toList.mp ofKey)
    · exact single "value" value (Option.mem_toList.mp ofValue)
  · exact members "items" read
  · cases read
    exact ⟨List.forall_mem_nil _, fun _ impossible => by cases impossible⟩

end RuleParts

/-! ## The rules that are nested -/

theorem RuleParts.Single.readEach {condition : Json → Prop} {parts : RuleParts Json}
    (single : parts.Single condition) {read : Json → Except RuleFault Rule}
    {rules : RuleParts Rule} (succeeded : parts.readWith read = .ok rules) :
    parts.ReadEach read rules := by
  cases single with
  | none =>
    cases succeeded
    exact .none
  | items held =>
    rcases Except.eq_ok_of_map_eq_ok succeeded with ⟨rule?, found, rfl⟩
    exact .items (Except.forall₂_of_optionMapM found)
  | record heldKey held =>
    rcases Except.eq_ok_of_bind_eq_ok succeeded with ⟨key?, foundKey, afterKey⟩
    rcases Except.eq_ok_of_bind_eq_ok afterKey with ⟨value?, found, same⟩
    cases same
    exact .record (Except.forall₂_of_optionMapM foundKey) (Except.forall₂_of_optionMapM found)
  | members =>
    cases succeeded
    exact .members .nil
  | fields =>
    cases succeeded
    exact .noFields

namespace Rule

theorem readMembers_eq_ok_iff {items : List Json} {rules : List Rule} :
    readMembers items = .ok rules ↔
      List.Forall₂ (fun value rule => Rule.read value = .ok rule) items rules := by
  constructor
  · intro read
    induction items generalizing rules with
    | nil =>
      rw [readMembers] at read
      cases read
      exact .nil
    | cons item rest inductionHypothesis =>
      rw [readMembers] at read
      rcases Except.eq_ok_of_bind_eq_ok read with ⟨first, found, others⟩
      rcases Except.eq_ok_of_map_eq_ok others with ⟨later, foundLater, rfl⟩
      exact .cons found (inductionHypothesis foundLater)
  · intro read
    induction read with
    | nil => rw [readMembers]
    | cons first _ inductionHypothesis =>
      rw [readMembers, first, inductionHypothesis]
      rfl

/-- A field has the name of an entry and the rule that is read from its value. -/
def ReadsAs (entry : String × Json) (field : String × Rule) : Prop :=
  field.1 = entry.1 ∧ Rule.read entry.2 = .ok field.2

/-- The fields of an object without a type are its keys but the reserved ones, in
their order, each with the rule that is read from its value. -/
def FieldsOf (entries : Entries Json) (fields : Entries Rule) : Prop :=
  List.Forall₂ ReadsAs (entries.filter fun entry => !isReserved entry.1) fields

/-- Fields are read one by one, and keep their order. -/
theorem readFields_eq_ok_iff {entries : Entries Json} {fields : Entries Rule} :
    readFields entries = .ok fields ↔ List.Forall₂ ReadsAs entries fields := by
  constructor
  · intro read
    induction entries generalizing fields with
    | nil =>
      rw [readFields] at read
      cases read
      exact .nil
    | cons entry rest inductionHypothesis =>
      rcases entry with ⟨name, value⟩
      rw [readFields] at read
      rcases Except.eq_ok_of_bind_eq_ok read with ⟨first, found, others⟩
      rcases Except.eq_ok_of_map_eq_ok others with ⟨later, foundLater, rfl⟩
      exact .cons ⟨rfl, Except.eq_ok_of_mapError_eq_ok found⟩ (inductionHypothesis foundLater)
  · intro read
    induction read with
    | nil => rw [readFields]
    | @cons entry field rest fields first _ inductionHypothesis =>
      rcases entry with ⟨name, value⟩
      rcases field with ⟨_, rule⟩
      rcases first with ⟨rfl, found⟩
      rw [readFields, found, inductionHypothesis]
      rfl

/-- An object without a type is read as the nested object that its type of its own, its
fields and its notes make up. -/
theorem read_untyped_iff {entries : Entries Json} (untyped : entries.get? "type" = none)
    {rule : Rule} :
    Rule.read (.object entries) = .ok rule ↔ ∃ own fields notes,
      ofNestedType entries = .ok own ∧ FieldsOf entries fields ∧
        Notes.ofEntries entries = .ok notes ∧
          rule = { own with
            kind := .object (some fields) {}
            notes := if notes.isEmpty then own.notes else notes } := by
  rw [Rule.read]
  simp only [untyped]
  constructor
  · intro read
    rcases Except.eq_ok_of_bind_eq_ok read with ⟨own, ofType, afterType⟩
    rcases Except.eq_ok_of_bind_eq_ok afterType with ⟨fields, declared, afterFields⟩
    rcases Except.eq_ok_of_map_eq_ok afterFields with ⟨notes, noted, rfl⟩
    exact ⟨own, fields, notes, ofType, readFields_eq_ok_iff.mp declared, noted, rfl⟩
  · rintro ⟨own, fields, notes, ofType, declared, noted, rfl⟩
    rw [ofType, readFields_eq_ok_iff.mpr declared, noted]
    rfl

/-- The fields of joined entries are those of the first entries, then those of the second. -/
theorem FieldsOf.exists_append {entries others : Entries Json} {fields : Entries Rule}
    (declared : FieldsOf (entries ++ others) fields) :
    ∃ first second, fields = first ++ second ∧ FieldsOf entries first ∧ FieldsOf others second := by
  rw [FieldsOf, List.filter_append] at declared
  have first := (List.forall₂_take_append _ _ _ declared.flip).flip
  have second := (List.forall₂_drop_append _ _ _ declared.flip).flip
  exact ⟨_, _, (List.take_append_drop _ fields).symm, first, second⟩

theorem FieldsOf.append {entries others : Entries Json} {first second : Entries Rule}
    (declared : FieldsOf entries first) (more : FieldsOf others second) :
    FieldsOf (entries ++ others) (first ++ second) := by
  rw [FieldsOf, List.filter_append]
  exact List.rel_append declared more

theorem names_of_forall₂_readsAs {entries : Entries Json} {fields : Entries Rule}
    (read : List.Forall₂ ReadsAs entries fields) : fields.names = entries.names := by
  induction read with
  | nil => rfl
  | cons first _ inductionHypothesis =>
    rw [Entries.names_cons, Entries.names_cons, first.1, inductionHypothesis]

theorem FieldsOf.nodup_names {entries : Entries Json} {fields : Entries Rule}
    (declared : FieldsOf entries fields) (distinct : entries.names.Nodup) :
    fields.names.Nodup := by
  rw [names_of_forall₂_readsAs declared]
  exact Entries.nodup_names_filter distinct _

theorem FieldsOf.exists_singleton {entry : String × Json} {fields : Entries Rule}
    (declared : FieldsOf [entry] fields) (field : isReserved entry.1 = false) :
    ∃ only, fields = [only] := by
  rw [FieldsOf, List.filter_cons, field] at declared
  rcases List.forall₂_cons_left_iff.mp declared with ⟨only, rest, -, others, rfl⟩
  exact ⟨only, by rw [List.forall₂_nil_left_iff.mp others]⟩

theorem values_of_forall₂_readsAs {entries : Entries Json} {fields : Entries Rule}
    (read : List.Forall₂ ReadsAs entries fields) :
    List.Forall₂ (fun value rule => Rule.read value = .ok rule) entries.values fields.values :=
  List.rel_map (fun _ _ same => same.2) read

theorem read_of_mem_readFields {entries : Entries Json} {fields : Entries Rule}
    (read : readFields entries = .ok fields) :
    fields.names = entries.names ∧
      ∀ field ∈ fields, ∃ entry ∈ entries, Rule.read entry.2 = .ok field.2 := by
  have each := readFields_eq_ok_iff.mp read
  refine ⟨names_of_forall₂_readsAs each, fun field member => ?_⟩
  rcases Except.exists_of_mem_forall₂ each member with ⟨entry, listed, same⟩
  exact ⟨entry, listed, same.2⟩

theorem readEach_of_readParts {parts : RuleParts Json} {rules : RuleParts Rule}
    (read : readParts parts = .ok rules) : parts.ReadEach Rule.read rules := by
  have alone : parts.Single (fun _ => True) → parts.ReadEach Rule.read rules :=
    fun single => single.readEach (single.readParts ▸ read)
  cases parts with
  | none => exact alone .none
  | items item => exact alone (.items fun _ _ => trivial)
  | record key value => exact alone (.record (fun _ _ => trivial) fun _ _ => trivial)
  | members items =>
    rw [readParts] at read
    rcases Except.eq_ok_of_map_eq_ok read with ⟨members, found, rfl⟩
    exact .members (readMembers_eq_ok_iff.mp found)
  | fields named =>
    cases named with
    | none => exact alone .fields
    | some entries =>
      rw [readParts] at read
      rcases Except.eq_ok_of_map_eq_ok read with ⟨fields, found, rfl⟩
      have each := readFields_eq_ok_iff.mp found
      exact .fields (names_of_forall₂_readsAs each) (values_of_forall₂_readsAs each)

end Rule

/-! ## What is put together -/

namespace RuleParts

variable {parts : RuleParts Rule}

theorem nested_of_itemRule? : ∀ rule ∈ parts.itemRule?, rule ∈ parts.nested := by
  intro rule item
  cases parts with
  | items item? => exact Option.mem_toList.mpr item
  | _ => cases item

theorem nested_of_memberRules : ∀ rule ∈ parts.memberRules, rule ∈ parts.nested := by
  intro rule member
  cases parts with
  | members rules => exact member
  | _ => cases member

theorem nested_of_recordRules :
    ∀ rule ∈ parts.recordRules.1.toList ++ parts.recordRules.2.toList, rule ∈ parts.nested := by
  intro rule inRecord
  cases parts with
  | record key value => exact inRecord
  | _ => cases inRecord

theorem nested_of_fieldRules? :
    ∀ rule ∈ Entries.values (parts.fieldRules?.getD []), rule ∈ parts.nested := by
  intro rule ofField
  cases parts with
  | fields named => exact ofField
  | _ => cases ofField

end RuleParts

/-- A kind holds no other rules than those that are nested. -/
theorem RuleKind.nested_of_mem_nested {name : String} {options : Options} {parts : RuleParts Rule}
    {kind : RuleKind} (assembled : RuleKind.assemble name options parts = .ok kind) :
    ∀ part ∈ kind.nested, part ∈ parts.nested := by
  have listed : ∀ rules : List Rule, (∀ part ∈ rules, part ∈ parts.nested) →
      ∀ part ∈ rules ++ [], part ∈ parts.nested := by
    intro rules inside part member
    rw [List.append_nil] at member
    exact inside part member
  unfold RuleKind.assemble at assembled
  split at assembled
  -- The kinds that hold rules, in the order of their tags.
  case h_2 =>
    rcases Except.eq_ok_of_map_eq_ok assembled with ⟨limits, -, rfl⟩
    exact listed _ fun part item => RuleParts.nested_of_itemRule? part (Option.mem_toList.mp item)
  case h_15 =>
    cases assembled
    exact listed _ RuleParts.nested_of_memberRules
  case h_17 =>
    rcases Except.eq_ok_of_map_eq_ok assembled with ⟨limits, -, rfl⟩
    exact RuleParts.nested_of_fieldRules?
  case h_19 =>
    cases assembled
    exact RuleParts.nested_of_recordRules
  case h_21 =>
    cases assembled
    exact listed _ RuleParts.nested_of_memberRules
  -- All others hold none.
  case h_10 =>
    rcases Except.eq_ok_of_bind_eq_ok assembled with ⟨field, -, afterField⟩
    rcases Except.eq_ok_of_bind_eq_ok afterField with ⟨strict, -, same⟩
    cases same
    exact List.forall_mem_nil _
  case h_5 | h_7 | h_9 | h_16 | h_20 | h_23 =>
    rcases Except.eq_ok_of_map_eq_ok assembled with ⟨_, -, rfl⟩
    exact List.forall_mem_nil _
  all_goals
    cases assembled
    exact List.forall_mem_nil _

theorem Rule.assemble_eq_ok {name : String} {options : Options} {parts : RuleParts Rule}
    {rule : Rule} (assembled : Rule.assemble name options parts = .ok rule) :
    RuleKind.assemble name options parts = .ok rule.kind ∧
      rule.fallback = Entries.get? options "default" := by
  rcases Except.eq_ok_of_bind_eq_ok assembled with ⟨kind, found, afterKind⟩
  rcases Except.eq_ok_of_bind_eq_ok afterKind with ⟨optional, -, afterOptional⟩
  rcases Except.eq_ok_of_bind_eq_ok afterOptional with ⟨nullable, -, afterNullable⟩
  rcases Except.eq_ok_of_bind_eq_ok afterNullable with ⟨notes, -, same⟩
  cases same
  exact ⟨found, rfl⟩

/-! ## What holds everywhere -/

theorem RuleParts.weight_le_of_mem_nested {parts : RuleParts Json} {value : Json}
    (member : value ∈ parts.nested) : value.weight ≤ parts.weight := by
  cases parts with
  | none => cases member
  | items item =>
    cases Option.mem_toList.mp member
    simp only [weight]
    omega
  | record key value? =>
    rcases List.mem_append.mp member with ofKey | ofValue
    · cases Option.mem_toList.mp ofKey
      simp only [weight, Option.map_some, Option.getD_some]
      omega
    · cases Option.mem_toList.mp ofValue
      simp only [weight, Option.map_some, Option.getD_some]
      omega
  | members rules =>
    have lighter : value.weight ≤ Json.weightItems rules := Json.weight_le_of_mem_items member
    simp only [weight]
    omega
  | fields named =>
    cases named with
    | none => cases member
    | some entries =>
      rcases List.mem_map.mp member with ⟨entry, listed, rfl⟩
      have lighter : entry.2.weight ≤ Json.weightEntries entries :=
        Json.weight_le_of_mem_entries listed
      simp only [weight]
      omega

theorem Shorthand.isScalar_value (raw : List Char) : (Shorthand.value raw).IsScalar := by
  unfold Shorthand.value
  split
  · exact ⟨fun _ => (nomatch ·), fun _ => (nomatch ·)⟩
  · split
    · exact ⟨fun _ => (nomatch ·), fun _ => (nomatch ·)⟩
    · split
      · exact ⟨fun _ => (nomatch ·), fun _ => (nomatch ·)⟩
      · split
        · exact ⟨fun _ => (nomatch ·), fun _ => (nomatch ·)⟩
        · exact ⟨fun _ => (nomatch ·), fun _ => (nomatch ·)⟩

theorem Json.IsScalar.parts_eq_nil {value : Json} (scalar : value.IsScalar) : value.parts = [] := by
  cases value with
  | list items => exact absurd rfl (scalar.1 items)
  | object entries => exact absurd rfl (scalar.2 entries)
  | _ => rfl

/-- The options of a shorthand are scalars that it can write. -/
theorem Shorthand.value_of_mem_options {parts : List (List Char)} {option : String × Json}
    (member : option ∈ Shorthand.options parts) :
    option.2 = .bool true ∨ ∃ raw, option.2 = Shorthand.value raw := by
  rcases Entries.mem_overlay member with listed | impossible
  · rcases List.mem_map.mp listed with ⟨part, -, rfl⟩
    unfold Shorthand.entry
    split
    · exact Or.inr ⟨_, rfl⟩
    · exact Or.inl rfl
  · cases impossible

theorem Shorthand.isScalar_of_mem_options {parts : List (List Char)} {option : String × Json}
    (member : option ∈ Shorthand.options parts) : option.2.IsScalar := by
  rcases Shorthand.value_of_mem_options member with flag | ⟨raw, written⟩
  · rw [flag]
    exact ⟨fun _ => (nomatch ·), fun _ => (nomatch ·)⟩
  · rw [written]
    exact Shorthand.isScalar_value raw

namespace Rule

variable {admits : Json → Prop} {condition : Rule → Prop}

namespace ReadingCondition

/-- A rule that is put together from what is read inside it. -/
theorem everywhere_of_assemble (conditions : ReadingCondition admits condition) {name : String}
    {options : Options} (admitted : ∀ option ∈ options, option.2.Everywhere admits)
    {nested : RuleParts Json} (inside : nested.Admitted admits)
    {read : Json → Except RuleFault Rule} {parts : RuleParts Rule}
    (each : nested.ReadEach read parts)
    (reads : ∀ value ∈ nested.nested, ∀ part, read value = .ok part → part.Everywhere condition)
    {rule : Rule} (assembled : Rule.assemble name options parts = .ok rule) :
    rule.Everywhere condition := by
  refine .intro ?_ fun part member => ?_
  · exact conditions.assembled name options parts rule admitted (each.readBy.namesRead inside) assembled
  · have ofNested := RuleKind.nested_of_mem_nested (Rule.assemble_eq_ok assembled).1 part member
    rcases Except.exists_of_mem_forall₂ each.nested ofNested with ⟨value, listed, same⟩
    exact reads value listed part same

/-- The options of a shorthand are read by a reader of single values. -/
theorem everywhere_of_typed (conditions : ReadingCondition admits condition) {options : Options}
    (admitted : ∀ option ∈ options, option.2.Everywhere admits)
    (scalar : ∀ option ∈ options, option.2.IsScalar) {read : Json → Except RuleFault Rule}
    (reads : ∀ value, value.Everywhere admits → ∀ rule, read value = .ok rule →
      rule.Everywhere condition) {name : String} {rule : Rule}
    (typed : ((RuleParts.ofOptions name options).bind fun parts =>
      (parts.readWith read).bind fun rules => Rule.assemble name options rules) = .ok rule) :
    rule.Everywhere condition := by
  rcases Except.eq_ok_of_bind_eq_ok typed with ⟨parts, found, afterParts⟩
  rcases Except.eq_ok_of_bind_eq_ok afterParts with ⟨rules, nested, assembled⟩
  have inside := RuleParts.admitted_of_ofOptions admitted found
  have single : parts.Single Json.IsScalar := by
    refine RuleParts.single_of_ofOptions (fun _ held => held) (fun name value _ given => ?_) found
    exact scalar (name, value) (Entries.mem_of_get?_eq_some given)
  exact conditions.everywhere_of_assemble admitted inside (single.readEach nested)
    (fun value listed => reads value (inside.nested value listed)) assembled

theorem everywhere_of_ofHead (conditions : ReadingCondition admits condition) {options : Options}
    (admitted : ∀ option ∈ options, option.2.Everywhere admits)
    (scalar : ∀ option ∈ options, option.2.IsScalar) {read : Json → Except RuleFault Rule}
    (reads : ∀ value, value.Everywhere admits → ∀ rule, read value = .ok rule →
      rule.Everywhere condition) {head : List Char} {rule : Rule}
    (succeeded : ofHead read head options = .ok rule) : rule.Everywhere condition := by
  unfold ofHead at succeeded
  simp only at succeeded
  split at succeeded
  · exact conditions.everywhere_of_typed admitted scalar reads succeeded
  · rcases Except.eq_ok_of_bind_eq_ok succeeded with ⟨list, typed, afterList⟩
    rcases Except.eq_ok_of_bind_eq_ok afterList with ⟨item, assembled, same⟩
    have whole := conditions.everywhere_of_typed admitted scalar reads typed
    have alone : RuleParts.Single Json.IsScalar .none := .none
    have nothing : RuleParts.Admitted admits .none :=
      ⟨List.forall_mem_nil _, fun _ impossible => by cases impossible⟩
    have itemHolds : item.Everywhere condition :=
      conditions.everywhere_of_assemble (List.forall_mem_nil _) nothing
        (alone.readEach (rfl : RuleParts.readWith read .none = .ok .none)) (List.forall_mem_nil _)
        assembled
    split at same
    · next items limits kind =>
      cases same
      refine .intro (conditions.list list item items limits whole.own kind) fun part member => ?_
      rw [List.mem_singleton.mp member]
      exact itemHolds
    · cases same
      exact whole

theorem everywhere_of_ofName (conditions : ReadingCondition admits condition) {text : String}
    {rule : Rule} (succeeded : ofName text = .ok rule) : rule.Everywhere condition := by
  unfold ofName at succeeded
  split at succeeded
  · cases succeeded
  · exact conditions.everywhere_of_ofHead (List.forall_mem_nil _) (List.forall_mem_nil _)
      (fun _ _ _ impossible => by cases impossible) succeeded

theorem everywhere_of_ofShorthand (conditions : ReadingCondition admits condition) {text : String}
    {rule : Rule} (succeeded : ofShorthand text = .ok rule) : rule.Everywhere condition := by
  have reads : ∀ value : Json, value.Everywhere admits → ∀ rule,
      ofOptionValue value = .ok rule → rule.Everywhere condition := by
    intro value _ rule read
    unfold ofOptionValue at read
    split at read
    · exact conditions.everywhere_of_ofName read
    · cases read
  have scalar : ∀ parts, ∀ option ∈ Shorthand.options parts, option.2.IsScalar :=
    fun _ _ => Shorthand.isScalar_of_mem_options
  have admitted : ∀ parts, ∀ option ∈ Shorthand.options parts, option.2.Everywhere admits := by
    intro parts option member
    refine .intro ?_ ((scalar parts option member).parts_eq_nil ▸ List.forall_mem_nil _)
    rcases Shorthand.value_of_mem_options member with flag | ⟨raw, written⟩
    · exact flag ▸ conditions.shorthand "true".toList
    · exact written ▸ conditions.shorthand raw
  unfold ofShorthand at succeeded
  split at succeeded
  · cases succeeded
  · cases succeeded
  · next head others _ _ =>
    exact conditions.everywhere_of_ofHead (admitted others) (scalar others) reads succeeded

theorem everywhere_of_nested (conditions : ReadingCondition admits condition)
    {entries : Entries Json} {own : Rule} (succeeded : ofNestedType entries = .ok own)
    {fields : Entries Rule} (names : NamesRead admits fields.names)
    (each : ∀ field ∈ fields, field.2.Everywhere condition) (notes : Notes) :
    Everywhere condition { own with kind := .object (some fields) {}, notes := notes } := by
  have parts : ∀ part ∈ RuleKind.nested (.object (some fields) {}), part.Everywhere condition := by
    intro part member
    rcases List.mem_map.mp member with ⟨field, listed, rfl⟩
    exact each field listed
  unfold ofNestedType at succeeded
  split at succeeded
  · cases succeeded
    exact .intro (conditions.nested _ fields notes conditions.untyped names) parts
  · rcases Except.eq_ok_of_map_eq_ok succeeded with ⟨base, read, rfl⟩
    have holds := conditions.everywhere_of_ofShorthand read
    exact .intro (conditions.nested base fields notes holds.own names) parts
  · cases succeeded

/-- What holds of every rule that is put together holds everywhere in a rule that is read. -/
theorem everywhere_of_read (conditions : ReadingCondition admits condition) {value : Json}
    (admitted : value.Everywhere admits) {rule : Rule} (succeeded : Rule.read value = .ok rule) :
    rule.Everywhere condition := by
  -- By recursion on the weight of the value, which bounds that of everything nested in it.
  cases value with
  | text shorthand =>
    rw [Rule.read] at succeeded
    exact conditions.everywhere_of_ofShorthand succeeded
  | list items =>
    rw [Rule.read] at succeeded
    rcases Except.eq_ok_of_map_eq_ok succeeded with ⟨members, found, rfl⟩
    refine .intro (conditions.members members) fun part member => ?_
    rw [RuleKind.nested_multi] at member
    rcases Except.exists_of_mem_forall₂ (readMembers_eq_ok_iff.mp found) member with ⟨item, listed, same⟩
    have lighter : item.weight < (Json.list items).weight := Json.weight_lt_of_mem_parts listed
    exact everywhere_of_read conditions (admitted.inside item listed) same
  | object entries =>
    rw [Rule.read] at succeeded
    split at succeeded
    · next name _ =>
      split at succeeded
      · cases succeeded
      · next nested found =>
        rcases Except.eq_ok_of_bind_eq_ok succeeded with ⟨rules, read, assembled⟩
        have inside := RuleParts.admitted_of_ofOptions admitted.entries found
        refine conditions.everywhere_of_assemble admitted.entries inside (readEach_of_readParts read)
          (fun source listed part same => ?_) assembled
        have lighter : source.weight < (Json.object entries).weight := by
          have whole := RuleParts.weight_lt_of_ofOptions found
          have part := RuleParts.weight_le_of_mem_nested listed
          omega
        exact everywhere_of_read conditions (inside.nested source listed) same
    · cases succeeded
    · rcases Except.eq_ok_of_bind_eq_ok succeeded with ⟨own, ofType, afterType⟩
      rcases Except.eq_ok_of_bind_eq_ok afterType with ⟨fields, found, afterFields⟩
      rcases Except.eq_ok_of_map_eq_ok afterFields with ⟨notes, -, rfl⟩
      rcases read_of_mem_readFields found with ⟨names, each⟩
      have namesRead : NamesRead admits (Entries.names fields) := ⟨entries, admitted.own, names⟩
      refine conditions.everywhere_of_nested ofType namesRead (fun field member => ?_) _
      rcases each field member with ⟨entry, listed, same⟩
      have declared := (List.mem_filter.mp listed).1
      have lighter : entry.2.weight < (Json.object entries).weight :=
        Json.weight_lt_of_mem_parts (List.mem_map_of_mem declared)
      exact everywhere_of_read conditions (admitted.entries entry declared) same
  | _ =>
    rw [Rule.read] at succeeded
    cases succeeded
termination_by value.weight

end ReadingCondition
end Rule
end RouteDocs
