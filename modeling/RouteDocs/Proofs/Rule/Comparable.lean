import RouteDocs.Proofs.Convert.Comparable
import RouteDocs.Proofs.Json.Orderly
import RouteDocs.Proofs.Rule.Reading

namespace RouteDocs

/-!
# Rules that are read are comparable

The values and numbers that a rule names are options, or parts of options, and
the names of its fields are keys.  An integer counts as the nearest number, which
is defined.  So a rule is comparable when it is read from a value that holds no
undefined number.
-/

namespace Options

variable {options : Options}

theorem comparable_of_values? (orderly : ∀ option ∈ options, option.2.Everywhere Json.IsOrderly)
    {name : String} {values? : Option (List Json)} (read : options.values? name = .ok values?) :
    ∀ value ∈ values?.getD [], value.Comparable := by
  cases values? with
  | none => exact List.forall_mem_nil _
  | some values =>
    rcases given?_of_readWith read with ⟨list, given, interpreted⟩
    cases list with
    | list items =>
      cases interpreted
      intro value member
      exact Json.comparable_of_orderly ((everywhere_of_given? orderly given).inside value member)
    | _ => cases interpreted

theorem defined_of_number? (orderly : ∀ option ∈ options, option.2.Everywhere Json.IsOrderly)
    {name : String} {number? : Option Float} (read : options.number? name = .ok number?) :
    ∀ number ∈ number?, (number == number) = true := by
  intro number present
  cases present
  rcases given?_of_readWith read with ⟨value, given, interpreted⟩
  cases value with
  | integer size =>
    cases interpreted
    exact (Decimal.isDefined_ofInt size).same
  | real size =>
    cases interpreted
    have defined : Decimal.IsDefined number := (everywhere_of_given? orderly given).own
    exact defined.same
  | _ => cases interpreted

theorem values?_of_textLimits {limits : TextLimits} (read : options.textLimits = .ok limits) :
    options.values? "enum" = .ok limits.choices := by
  rcases Except.eq_ok_of_bind_eq_ok read with ⟨min, -, read⟩
  rcases Except.eq_ok_of_bind_eq_ok read with ⟨max, -, read⟩
  rcases Except.eq_ok_of_bind_eq_ok read with ⟨length, -, read⟩
  rcases Except.eq_ok_of_bind_eq_ok read with ⟨pattern, -, read⟩
  rcases Except.eq_ok_of_bind_eq_ok read with ⟨contains, -, read⟩
  rcases Except.eq_ok_of_bind_eq_ok read with ⟨choices, found, read⟩
  rcases Except.eq_ok_of_bind_eq_ok read with ⟨alpha, -, read⟩
  rcases Except.eq_ok_of_bind_eq_ok read with ⟨numeric, -, read⟩
  rcases Except.eq_ok_of_bind_eq_ok read with ⟨alphanum, -, read⟩
  rcases Except.eq_ok_of_bind_eq_ok read with ⟨alphadash, -, read⟩
  rcases Except.eq_ok_of_bind_eq_ok read with ⟨hex, -, read⟩
  rcases Except.eq_ok_of_bind_eq_ok read with ⟨base64, -, read⟩
  rcases Except.eq_ok_of_bind_eq_ok read with ⟨singleLine, -, read⟩
  rcases Except.eq_ok_of_bind_eq_ok read with ⟨empty, -, read⟩
  cases read
  exact found

theorem values?_of_listLimits {limits : ListLimits} (read : options.listLimits = .ok limits) :
    options.values? "enum" = .ok limits.choices := by
  rcases Except.eq_ok_of_bind_eq_ok read with ⟨min, -, read⟩
  rcases Except.eq_ok_of_bind_eq_ok read with ⟨max, -, read⟩
  rcases Except.eq_ok_of_bind_eq_ok read with ⟨length, -, read⟩
  rcases Except.eq_ok_of_bind_eq_ok read with ⟨unique, -, read⟩
  rcases Except.eq_ok_of_bind_eq_ok read with ⟨choices, found, read⟩
  rcases Except.eq_ok_of_bind_eq_ok read with ⟨empty, -, read⟩
  cases read
  exact found

theorem number?_of_numberLimits {limits : NumberLimits} (read : options.numberLimits = .ok limits) :
    options.number? "min" = .ok limits.min ∧ options.number? "max" = .ok limits.max ∧
      options.number? "equal" = .ok limits.equal := by
  rcases Except.eq_ok_of_bind_eq_ok read with ⟨min, foundMin, read⟩
  rcases Except.eq_ok_of_bind_eq_ok read with ⟨max, foundMax, read⟩
  rcases Except.eq_ok_of_bind_eq_ok read with ⟨equal, foundEqual, read⟩
  rcases Except.eq_ok_of_bind_eq_ok read with ⟨notEqual, -, read⟩
  rcases Except.eq_ok_of_bind_eq_ok read with ⟨integer, -, read⟩
  rcases Except.eq_ok_of_bind_eq_ok read with ⟨positive, -, read⟩
  rcases Except.eq_ok_of_bind_eq_ok read with ⟨negative, -, read⟩
  cases read
  exact ⟨foundMin, foundMax, foundEqual⟩

end Options

/-- A kind without values, numbers and fields. -/
theorem RuleKind.comparable_of_bare {kind : RuleKind} (noValues : kind.values = [])
    (noNumbers : kind.numbers = []) (noFields : kind.fields = []) : kind.Comparable where
  values := noValues ▸ List.forall_mem_nil _
  numbers := noNumbers ▸ List.forall_mem_nil _
  names := noFields ▸ List.nodup_nil

theorem NamesRead.nodup {names : List String} (read : NamesRead Json.IsOrderly names) :
    names.Nodup := by
  rcases read with ⟨entries, distinct, rfl⟩
  exact Entries.nodup_names_filter distinct _

theorem RuleKind.comparable_of_assemble {name : String} {options : Options}
    {parts : RuleParts Rule} {kind : RuleKind}
    (orderly : ∀ option ∈ options, option.2.Everywhere Json.IsOrderly)
    (names : ∀ fields, parts.fieldRules? = some fields →
      NamesRead Json.IsOrderly (Entries.names fields))
    (assembled : RuleKind.assemble name options parts = .ok kind) : kind.Comparable := by
  unfold RuleKind.assemble at assembled
  split at assembled
  case h_2 =>
    rcases Except.eq_ok_of_map_eq_ok assembled with ⟨limits, read, rfl⟩
    exact ⟨Options.comparable_of_values? orderly (Options.values?_of_listLimits read),
      List.forall_mem_nil _, List.nodup_nil⟩
  case h_9 =>
    rcases Except.eq_ok_of_map_eq_ok assembled with ⟨values?, read, rfl⟩
    exact ⟨Options.comparable_of_values? orderly read, List.forall_mem_nil _, List.nodup_nil⟩
  case h_10 =>
    rcases Except.eq_ok_of_bind_eq_ok assembled with ⟨field, -, afterField⟩
    rcases Except.eq_ok_of_bind_eq_ok afterField with ⟨strict, -, same⟩
    cases same
    refine ⟨fun value member => ?_, List.forall_mem_nil _, List.nodup_nil⟩
    have given := Entries.mem_of_get?_eq_some (Option.mem_toList.mp member)
    exact Json.comparable_of_orderly (orderly _ given)
  case h_16 =>
    rcases Except.eq_ok_of_map_eq_ok assembled with ⟨limits, read, rfl⟩
    rcases Options.number?_of_numberLimits read with ⟨min, max, equal⟩
    refine ⟨List.forall_mem_nil _, fun number member => ?_, List.nodup_nil⟩
    simp only [RuleKind.numbers, List.mem_append, Option.mem_toList] at member
    rcases member with (least | most) | exactly
    · exact Options.defined_of_number? orderly min number least
    · exact Options.defined_of_number? orderly max number most
    · exact Options.defined_of_number? orderly equal number exactly
  case h_17 =>
    rcases Except.eq_ok_of_map_eq_ok assembled with ⟨limits, -, rfl⟩
    refine ⟨List.forall_mem_nil _, List.forall_mem_nil _, ?_⟩
    cases given : parts.fieldRules? with
    | none => exact List.nodup_nil
    | some fields => exact (names fields given).nodup
  case h_20 =>
    rcases Except.eq_ok_of_map_eq_ok assembled with ⟨limits, read, rfl⟩
    exact ⟨Options.comparable_of_values? orderly (Options.values?_of_textLimits read),
      List.forall_mem_nil _, List.nodup_nil⟩
  -- All other kinds show nothing of their own.
  case h_5 | h_7 | h_23 =>
    rcases Except.eq_ok_of_map_eq_ok assembled with ⟨_, -, rfl⟩
    exact comparable_of_bare rfl rfl rfl
  all_goals
    cases assembled
    exact comparable_of_bare rfl rfl rfl

/-- Rules that are put together from orderly values are comparable. -/
theorem Rule.ownComparable_reading : Rule.ReadingCondition Json.IsOrderly Rule.OwnComparable where
  shorthand raw := by
    unfold Shorthand.value
    split
    · trivial
    · split
      · trivial
      · split
        · trivial
        · split
          · next read => exact Decimal.isDefined_of_real? read
          · trivial
  assembled name options parts rule orderly names assembled := by
    rcases Rule.assemble_eq_ok assembled with ⟨kind, fallback⟩
    refine ⟨RuleKind.comparable_of_assemble orderly names kind, fun value standsIn => ?_⟩
    rw [fallback] at standsIn
    exact Json.comparable_of_orderly (orderly _ (Entries.mem_of_get?_eq_some standsIn))
  list rule item items limits own kind := by
    have values := own.kind.values
    rw [kind] at values
    exact ⟨⟨values, List.forall_mem_nil _, List.nodup_nil⟩, own.fallback⟩
  members members :=
    ⟨RuleKind.comparable_of_bare rfl rfl rfl, fun _ standsIn => by cases standsIn⟩
  untyped := ⟨RuleKind.comparable_of_bare rfl rfl rfl, fun _ standsIn => by cases standsIn⟩
  nested own fields notes holds names :=
    ⟨⟨List.forall_mem_nil _, List.forall_mem_nil _, names.nodup⟩, holds.fallback⟩

/-- A rule that is read from an orderly value is comparable. -/
theorem Rule.comparable_of_read {value : Json} (orderly : value.Everywhere Json.IsOrderly)
    {rule : Rule} (read : Rule.read value = .ok rule) : rule.Comparable :=
  (Rule.ownComparable_reading.everywhere_of_read orderly read).throughout

end RouteDocs
