import RouteDocs.Rule.Shorthand
import RouteDocs.Json.Weight

namespace RouteDocs

/-!
# Reading rules

A rule is written in one of four shapes: a shorthand text, a list of
alternatives, an object with a `type` and options, or an object without `type`
whose keys are the fields of a nested object.  Keys that begin with the
reserved mark are never fields.  The first fault in the order of reading is
the one reported, under the names of the fields it lies in.
-/

namespace RuleParts

/-- A bound on the weight of the nested values. -/
def weight (parts : RuleParts Json) : Nat :=
  match parts with
  | .none => 0
  | .items Option.none => 0
  | .items (some value) => 1 + value.weight
  | .record key value => max ((key.map Json.weight).getD 0) ((value.map Json.weight).getD 0) + 1
  | .members rules => 1 + Json.weightItems rules
  | .fields Option.none => 0
  | .fields (some entries) => 1 + Json.weightEntries entries

end RuleParts

namespace Options

theorem weight_lt_of_given {options : Options} {name : String} {value : Json}
    (given : options.given? name = some value) : value.weight < Json.weightEntries options := by
  unfold given? at given
  split at given
  · cases given
  · exact Json.weight_lt_of_get?_eq_some given

theorem weightItems_le_of_members {options : Options} {name : String} {rules : List Json}
    (read : options.members name = .ok rules) :
    rules = [] ∨ 1 + Json.weightItems rules < Json.weightEntries options := by
  unfold members readWith at read
  cases found : options.given? name with
  | none => rw [found] at read; cases read; exact Or.inl rfl
  | some value =>
    rw [found] at read
    cases value with
    | list items =>
      cases read
      have lighter := weight_lt_of_given found
      simp only [Json.weight] at lighter
      exact Or.inr lighter
    | null => cases read
    | bool flag => cases read
    | integer number => cases read
    | real number => cases read
    | text characters => cases read
    | object entries => cases read

theorem weightEntries_lt_of_fields {options : Options} {entries : Entries Json}
    (read : options.fields = .ok (some entries)) :
    1 + Json.weightEntries entries < Json.weightEntries options := by
  unfold fields at read
  split at read
  · cases read
  · next declared found =>
    cases read
    have lighter : (Json.object declared).weight < Json.weightEntries options := by
      cases first : Entries.get? options "properties" with
      | some value =>
        rw [first] at found
        cases found
        exact Json.weight_lt_of_get?_eq_some first
      | none =>
        rw [first] at found
        exact Json.weight_lt_of_get?_eq_some found
    have fewer := Json.weightEntries_filter_le (fun entry => !isReserved entry.1) declared
    simp only [Json.weight] at lighter
    omega
  · cases read

end Options

namespace RuleParts

/-- What a rule nests is lighter than the rule. -/
theorem weight_lt_of_ofOptions {name : String} {options : Options} {parts : RuleParts Json}
    (read : RuleParts.ofOptions name options = .ok parts) :
    parts.weight < (Json.object options).weight := by
  have members (key : String) (result : (options.members key).map .members = .ok parts) :
      parts.weight < 2 + Json.weightEntries options := by
    cases given : options.members key with
    | error fault => rw [given] at result; cases result
    | ok rules =>
      rw [given] at result
      cases result
      cases Options.weightItems_le_of_members given with
      | inl empty => subst empty; simp only [weight, Json.weightItems]; omega
      | inr lighter => simp only [weight]; omega
  have single (key : String) :
      ((options.given? key).map Json.weight).getD 0 ≤ Json.weightEntries options := by
    cases given : options.given? key with
    | none => exact Nat.zero_le _
    | some value => exact Nat.le_of_lt (Options.weight_lt_of_given given)
  rw [Json.weight]
  unfold RuleParts.ofOptions at read
  split at read
  · cases read
    have := single "items"
    cases given : options.given? "items" with
    | none => simp only [weight]; omega
    | some value =>
      rw [given] at this
      simp only [Option.map_some, Option.getD_some] at this
      simp only [weight]
      omega
  · exact members "rules" read
  · cases result : options.fields with
    | error fault => rw [result] at read; cases read
    | ok named =>
      rw [result] at read
      cases read
      cases named with
      | none => simp only [weight]; omega
      | some entries =>
        have := Options.weightEntries_lt_of_fields result
        simp only [weight]
        omega
  · cases read
    have := single "key"
    have := single "value"
    simp only [weight]
    omega
  · exact members "items" read
  · cases read
    simp only [weight]
    omega

end RuleParts

def nestedTypeKey : String := "$$type"

namespace Rule

/-- A nested object before its fields are read.  Of the shorthand that types
it, only the flags of every kind and the notes are taken over. -/
def ofNestedType (entries : Entries Json) : Except RuleFault Rule :=
  match entries.get? nestedTypeKey with
  | none => .ok { kind := .object none {} }
  | some (.text shorthand) =>
    (ofShorthand shorthand).map fun own => { own with kind := .object none {} }
  | some found => .error (.nestedTypeNotText found)

mutual

def read (value : Json) : Except RuleFault Rule :=
  match value with
  | .text shorthand => ofShorthand shorthand
  | .list items => (readMembers items).map fun members => { kind := .multi members }
  | .object entries =>
    match Entries.get? entries "type" with
    | some (.text name) =>
      match parts : RuleParts.ofOptions name entries with
      | .error fault => .error fault
      | .ok nested =>
        have := RuleParts.weight_lt_of_ofOptions parts
        (readParts nested).bind fun rules => Rule.assemble name entries rules
    | some found => .error (.typeNotText found)
    | none =>
      have := Json.weightEntries_filter_le (fun entry => !isReserved entry.1) entries
      (ofNestedType entries).bind fun own =>
        (readFields (entries.filter fun entry => !isReserved entry.1)).bind fun fields =>
          (Notes.ofEntries entries).map fun notes =>
            { own with
              kind := .object (some fields) {}
              notes := if notes.isEmpty then own.notes else notes }
  | .null => .error (.notARule .null)
  | .bool flag => .error (.notARule (.bool flag))
  | .integer number => .error (.notARule (.integer number))
  | .real number => .error (.notARule (.real number))
termination_by value.weight
decreasing_by
  all_goals simp only [Json.weight] at *
  all_goals omega

/-- Read the values that a rule nests. -/
def readParts (parts : RuleParts Json) : Except RuleFault (RuleParts Rule) :=
  match parts with
  | .none => .ok .none
  | .items none => .ok (.items none)
  | .items (some value) => (read value).map fun rule => .items (some rule)
  | .record none none => .ok (.record none none)
  | .record (some key) none => (read key).map fun rule => .record (some rule) none
  | .record none (some value) => (read value).map fun rule => .record none (some rule)
  | .record (some key) (some value) =>
    (read key).bind fun keyRule => (read value).map fun rule => .record (some keyRule) (some rule)
  | .members rules => (readMembers rules).map .members
  | .fields none => .ok (.fields none)
  | .fields (some entries) => (readFields entries).map fun fields => .fields (some fields)
termination_by parts.weight
decreasing_by
  all_goals simp only [RuleParts.weight, Option.map_some, Option.map_none, Option.getD_some,
    Option.getD_none]
  all_goals omega

def readMembers (items : List Json) : Except RuleFault (List Rule) :=
  match items with
  | [] => .ok []
  | item :: rest =>
    (read item).bind fun rule => (readMembers rest).map fun rules => rule :: rules
termination_by Json.weightItems items
decreasing_by
  all_goals simp only [Json.weightItems]
  all_goals omega

/-- Read the rules of fields in order.  A fault names the field. -/
def readFields (entries : List (String × Json)) : Except RuleFault (List (String × Rule)) :=
  match entries with
  | [] => .ok []
  | (name, value) :: rest =>
    ((read value).mapError (.inField name)).bind fun rule =>
      (readFields rest).map fun rules => (name, rule) :: rules
termination_by Json.weightEntries entries
decreasing_by
  all_goals simp only [Json.weightEntries]
  all_goals omega

end

end Rule
end RouteDocs
