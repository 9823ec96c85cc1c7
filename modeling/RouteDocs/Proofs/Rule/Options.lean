import RouteDocs.Proofs.Except
import RouteDocs.Rule.Read

namespace RouteDocs

/-!
# Rules read from options

A rule in typed form is an object that has its type among its options.  The
type is read before the options, and no option has its name, so a rule with
given type depends only on the other entries (`Rule.assemble_congr`).

What a rule nests is read by the same reader everywhere but in a shorthand.  With
scalar options the two readers see at most single values (`RuleParts.Single`), so it
is enough to compare them on these.
-/

namespace Options

/-- Two tables have the same options besides the type. -/
def Agree (options others : Options) : Prop :=
  ∀ name, name ≠ "type" → Entries.get? options name = Entries.get? others name

variable {options others : Options}

theorem Agree.given? (agree : options.Agree others) {name : String} (option : name ≠ "type") :
    options.given? name = others.given? name := by
  unfold Options.given?
  rw [agree name option]

theorem Agree.readWith {α : Type} (agree : options.Agree others) {name : String}
    (option : name ≠ "type") (form : OptionForm) (interpret : Json → Option α) :
    options.readWith name form interpret = others.readWith name form interpret := by
  unfold Options.readWith
  rw [agree.given? option]

theorem Agree.textLimits (agree : options.Agree others) :
    options.textLimits = others.textLimits := by
  simp (disch := decide) only [Options.textLimits, natural?, text?, values?, mark, truth?,
    agree.readWith]

theorem Agree.numberLimits (agree : options.Agree others) :
    options.numberLimits = others.numberLimits := by
  simp (disch := decide) only [Options.numberLimits, number?, mark, truth?, agree.readWith]

theorem Agree.listLimits (agree : options.Agree others) :
    options.listLimits = others.listLimits := by
  simp (disch := decide) only [Options.listLimits, natural?, values?, mark, truth?,
    agree.readWith, agree "contains"]

theorem Agree.objectLimits (agree : options.Agree others) :
    options.objectLimits = others.objectLimits := by
  simp (disch := decide) only [Options.objectLimits, natural?, agree.readWith, agree "strict"]

theorem Agree.currencyFormat (agree : options.Agree others) :
    options.currencyFormat = others.currencyFormat := by
  simp (disch := decide) only [Options.currencyFormat, text?, mark, truth?, agree.readWith]

theorem Agree.fields (agree : options.Agree others) : options.fields = others.fields := by
  simp (disch := decide) only [Options.fields, agree "properties", agree "props"]

end Options

variable {options others : Options}

theorem RuleParts.ofOptions_congr (agree : options.Agree others) (name : String) :
    RuleParts.ofOptions name options = RuleParts.ofOptions name others := by
  simp (disch := decide) only [RuleParts.ofOptions, Options.members, agree.given?, agree.readWith,
    agree.fields]

theorem RuleKind.assemble_congr (agree : options.Agree others) (name : String)
    (parts : RuleParts Rule) :
    RuleKind.assemble name options parts = RuleKind.assemble name others parts := by
  simp (disch := decide) only [RuleKind.assemble, agree.textLimits, agree.numberLimits,
    agree.listLimits, agree.objectLimits, agree.currencyFormat, Options.natural?, Options.text?,
    Options.values?, Options.mark, Options.truth?, agree.readWith, agree "value"]

/-- The type among the options does not count once it is known. -/
theorem Rule.assemble_congr (agree : options.Agree others) (name : String)
    (parts : RuleParts Rule) :
    Rule.assemble name options parts = Rule.assemble name others parts := by
  simp (disch := decide) only [Rule.assemble, RuleKind.assemble_congr agree, Options.mark,
    Options.truth?, agree.readWith, Notes.ofEntries, notesKey, agree "$$oa", agree "default"]

/-! ## Rules with scalar options -/

/-- Neither a list nor an object. -/
def Json.IsScalar (value : Json) : Prop :=
  (∀ items, value ≠ .list items) ∧ ∀ entries, value ≠ .object entries

namespace RuleParts

/-- What a rule nests when its options are scalar: single values at most. -/
inductive Single (condition : Json → Prop) : RuleParts Json → Prop where
  | none : Single condition .none
  | items {item : Option Json} (held : ∀ value ∈ item, condition value) :
      Single condition (.items item)
  | record {key value : Option Json} (heldKey : ∀ found ∈ key, condition found)
      (held : ∀ found ∈ value, condition found) : Single condition (.record key value)
  | members : Single condition (.members [])
  | fields : Single condition (.fields Option.none)

variable {condition : Json → Prop} {parts : RuleParts Json}

theorem Single.readWith_congr (single : Single condition parts)
    {read other : Json → Except RuleFault Rule}
    (same : ∀ value, condition value → read value = other value) :
    parts.readWith read = parts.readWith other := by
  have mapped : ∀ value? : Option Json, (∀ value ∈ value?, condition value) →
      value?.mapM read = value?.mapM other := by
    intro value? held
    cases value? with
    | none => rfl
    | some value =>
      change (some <$> read value) = some <$> other value
      rw [same value (held value rfl)]
  cases single with
  | none => rfl
  | items held => simp only [readWith, mapped _ held]
  | record heldKey held => simp only [readWith, mapped _ heldKey, mapped _ held]
  | members => rfl
  | fields => rfl

/-- Single values are read alike by the reader of all rules. -/
theorem Single.readParts (single : Single condition parts) :
    Rule.readParts parts = parts.readWith Rule.read := by
  cases single with
  | none => simp only [Rule.readParts, readWith]
  | @items item _ =>
    cases item with
    | none => simp only [Rule.readParts, readWith]; rfl
    | some value =>
      simp only [Rule.readParts, readWith, Option.mapM_some]
      cases Rule.read value <;> rfl
  | @record key value _ _ =>
    cases key with
    | none =>
      cases value with
      | none => simp only [Rule.readParts, readWith]; rfl
      | some value =>
        simp only [Rule.readParts, readWith, Option.mapM_some]
        cases Rule.read value <;> rfl
    | some key =>
      cases value with
      | none =>
        simp only [Rule.readParts, readWith, Option.mapM_some]
        cases Rule.read key <;> rfl
      | some value =>
        simp only [Rule.readParts, readWith, Option.mapM_some]
        cases Rule.read key <;> cases Rule.read value <;> rfl
  | members => simp only [Rule.readParts, Rule.readMembers, readWith]; rfl
  | fields => simp only [Rule.readParts, readWith]; rfl

end RuleParts

namespace Options

theorem get?_of_given? {name : String} {value : Json} (given : options.given? name = some value) :
    Entries.get? options name = some value := by
  unfold Options.given? at given
  split at given
  · cases given
  · exact given

variable {condition : Json → Prop}

/-- No list of rules is given by a scalar option. -/
theorem members_eq_nil (scalar : ∀ value, condition value → value.IsScalar) {name : String}
    (held : ∀ value, Entries.get? options name = some value → condition value) {rules : List Json}
    (read : options.members name = .ok rules) : rules = [] := by
  unfold members readWith at read
  cases given : options.given? name with
  | none =>
    rw [given] at read
    cases read
    rfl
  | some value =>
    rw [given] at read
    cases value with
    | list items => exact absurd rfl ((scalar _ (held _ (get?_of_given? given))).1 items)
    | _ => cases read

/-- Nor are fields. -/
theorem fields_eq_none (scalar : ∀ value, condition value → value.IsScalar)
    (held : ∀ name value, name ≠ "type" → Entries.get? options name = some value →
      condition value) {named : Option (Entries Json)}
    (read : options.fields = .ok named) : named = none := by
  unfold fields at read
  split at read
  · cases read
    rfl
  · next entries found =>
    have given : condition (.object entries) := by
      rcases Option.or_eq_some_iff.mp found with first | ⟨-, second⟩
      · exact held "properties" _ (by decide) first
      · exact held "props" _ (by decide) second
    exact absurd rfl ((scalar _ given).2 entries)
  · cases read

end Options

/-- What a rule with scalar options nests. -/
theorem RuleParts.single_of_ofOptions {condition : Json → Prop}
    (scalar : ∀ value, condition value → value.IsScalar)
    (held : ∀ name value, name ≠ "type" → Entries.get? options name = some value →
      condition value) {name : String} {parts : RuleParts Json}
    (read : RuleParts.ofOptions name options = .ok parts) : parts.Single condition := by
  have single : ∀ key, key ≠ "type" → ∀ value ∈ options.given? key, condition value :=
    fun key option value given => held key value option (Options.get?_of_given? given)
  unfold RuleParts.ofOptions at read
  split at read
  · cases read
    exact .items (single "items" (by decide))
  · obtain ⟨rules, given, rfl⟩ := Except.eq_ok_of_map_eq_ok read
    rw [Options.members_eq_nil scalar (fun value => held "rules" value (by decide)) given]
    exact .members
  · obtain ⟨named, given, rfl⟩ := Except.eq_ok_of_map_eq_ok read
    rw [Options.fields_eq_none scalar held given]
    exact .fields
  · cases read
    exact .record (single "key" (by decide)) (single "value" (by decide))
  · obtain ⟨rules, given, rfl⟩ := Except.eq_ok_of_map_eq_ok read
    rw [Options.members_eq_nil scalar (fun value => held "items" value (by decide)) given]
    exact .members
  · cases read
    exact .none

end RouteDocs
