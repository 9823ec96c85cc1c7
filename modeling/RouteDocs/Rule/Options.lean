import RouteDocs.Input.Record

namespace RouteDocs

/-!
# Reading the options of a rule

A rule in typed form is an object whose `type` names the kind and whose other
entries are options.  Options that the kind does not know are passed over, and
a missing value counts as an option that is not given.  What a kind nests (the
item rule, the fields, the members) is taken out first, by `RuleParts.ofOptions`;
`Rule.assemble` reads everything else once the nested rules are known.
-/

/-- The beginning of every key that is not the name of a field. -/
def reservedMark : String := "$$"

/-- Whether a key is reserved. -/
def isReserved (key : String) : Bool :=
  reservedMark.toList.isPrefixOf key.toList

def notesKey : String := "$$oa"

namespace Notes

def fields : List (RecordField Notes) :=
  [.of "description" (Node.asOptional Node.asText)
    fun value notes => { notes with description := value },
   .of "summary" (Node.asOptional Node.asText)
    fun value notes => { notes with summary := value },
   .of "deprecated" (Node.asOptional Node.asBool)
    fun value notes => { notes with deprecated := value }]

def read (node : Node) : Reading Notes :=
  RecordField.readRecord fields {} node

/-- The notes among the entries of an object. -/
def ofEntries (entries : Entries Json) : Except RuleFault Notes :=
  match entries.get? notesKey with
  | none => .ok {}
  | some value =>
    match read (Node.ofJson value) with
    | .ok notes => .ok notes
    | .error _ => .error .badNotes

end Notes

/-- The options of a rule by name. -/
abbrev Options : Type := Entries Json

namespace Options

/-- An option that is given and not the missing value. -/
def given? (options : Options) (name : String) : Option Json :=
  match Entries.get? options name with
  | some .null => none
  | found => found

/-- An option read by `form`, absent when it is not given. -/
def readWith {α : Type} (options : Options) (name : String) (form : OptionForm)
    (interpret : Json -> Option α) : Except RuleFault (Option α) :=
  match options.given? name with
  | none => .ok none
  | some value =>
    match interpret value with
    | some meaning => .ok (some meaning)
    | none => .error (.badOption name form value)

def truth? (options : Options) (name : String) : Except RuleFault (Option Bool) :=
  options.readWith name .truth fun value =>
    match value with
    | .bool flag => some flag
    | _ => none

/-- A mark, false unless it is set. -/
def mark (options : Options) (name : String) : Except RuleFault Bool :=
  (options.truth? name).map fun value? => value?.getD false

def natural? (options : Options) (name : String) : Except RuleFault (Option Nat) :=
  options.readWith name .natural Json.asNatural?

def number? (options : Options) (name : String) : Except RuleFault (Option Float) :=
  options.readWith name .number Json.asReal?

def text? (options : Options) (name : String) : Except RuleFault (Option String) :=
  options.readWith name .text Json.asText?

def values? (options : Options) (name : String) : Except RuleFault (Option (List Json)) :=
  options.readWith name .list fun value =>
    match value with
    | .list items => some items
    | _ => none

def textLimits (options : Options) : Except RuleFault TextLimits := do
  return {
    min := ← options.natural? "min"
    max := ← options.natural? "max"
    length := ← options.natural? "length"
    pattern := ← options.text? "pattern"
    contains := ← options.text? "contains"
    choices := ← options.values? "enum"
    alpha := ← options.mark "alpha"
    numeric := ← options.mark "numeric"
    alphanum := ← options.mark "alphanum"
    alphadash := ← options.mark "alphadash"
    hex := ← options.mark "hex"
    base64 := ← options.mark "base64"
    singleLine := ← options.mark "singleLine"
    empty := ← options.truth? "empty" }

def numberLimits (options : Options) : Except RuleFault NumberLimits := do
  return {
    min := ← options.number? "min"
    max := ← options.number? "max"
    equal := ← options.number? "equal"
    notEqual := ← options.number? "notEqual"
    integer := ← options.mark "integer"
    positive := ← options.mark "positive"
    negative := ← options.mark "negative" }

def listLimits (options : Options) : Except RuleFault ListLimits := do
  return {
    min := ← options.natural? "min"
    max := ← options.natural? "max"
    length := ← options.natural? "length"
    unique := ← options.mark "unique"
    contains := Entries.get? options "contains"
    choices := ← options.values? "enum"
    empty := ← options.truth? "empty" }

/-- The constraints of an object.  Only the plain mark makes it strict; other
values of the option ask for undeclared fields to be dropped, which is no constraint. -/
def objectLimits (options : Options) : Except RuleFault ObjectLimits := do
  return {
    strict := match Entries.get? options "strict" with
      | some (.bool flag) => flag
      | _ => false
    minProps := ← options.natural? "minProps"
    maxProps := ← options.natural? "maxProps" }

def currencyFormat (options : Options) : Except RuleFault CurrencyFormat := do
  return {
    symbol := ← options.text? "currencySymbol"
    symbolOptional := ← options.mark "symbolOptional"
    thousandSeparator := ← options.text? "thousandSeparator"
    decimalSeparator := ← options.text? "decimalSeparator"
    customPattern := ← options.text? "customRegex" }

end Options

/-- What a rule of some kind nests: the values to be read as rules, or the
rules read from them. -/
inductive RuleParts (ρ : Type) where
  | none
  | items (rule : Option ρ)
  | record (key value : Option ρ)
  | members (rules : List ρ)
  | fields (named : Option (List (String × ρ)))

/-- The members given by an option, none when it is not given. -/
def Options.members (options : Options) (name : String) : Except RuleFault (List Json) :=
  (options.readWith name .rules fun value =>
    match value with
    | .list items => some items
    | _ => none).map fun items? => items?.getD []

/-- The declared fields, under either of their two names.  Reserved keys are no fields. -/
def Options.fields (options : Options) : Except RuleFault (Option (Entries Json)) :=
  match (Entries.get? options "properties").or (Entries.get? options "props") with
  | Option.none => .ok Option.none
  | some (.object entries) => .ok (some (entries.filter fun entry => !isReserved entry.1))
  | some found => .error (.fieldsNotObject found)

/-- What a rule of the named kind nests. -/
def RuleParts.ofOptions (name : String) (options : Options) : Except RuleFault (RuleParts Json) :=
  match RuleTag.ofName? name with
  | some .array => .ok (.items (options.given? "items"))
  | some .multi => (options.members "rules").map .members
  | some .object => options.fields.map .fields
  | some .record => .ok (.record (options.given? "key") (options.given? "value"))
  | some .tuple => (options.members "items").map .members
  | _ => .ok .none

def RuleParts.itemRule? (parts : RuleParts Rule) : Option Rule :=
  match parts with
  | .items rule => rule
  | _ => Option.none

def RuleParts.memberRules (parts : RuleParts Rule) : List Rule :=
  match parts with
  | .members rules => rules
  | _ => []

def RuleParts.fieldRules? (parts : RuleParts Rule) : Option (List (String × Rule)) :=
  match parts with
  | .fields named => named
  | _ => Option.none

def RuleParts.recordRules (parts : RuleParts Rule) : Option Rule × Option Rule :=
  match parts with
  | .record key value => (key, value)
  | _ => (Option.none, Option.none)

/-- The kind with the given name, from its options and the rules it nests.  A
name that no kind has is kept as it is. -/
def RuleKind.assemble (name : String) (options : Options) (parts : RuleParts Rule) :
    Except RuleFault RuleKind :=
  match RuleTag.ofName? name with
  | some .any => .ok .any
  | some .array => (options.listLimits).map (.array parts.itemRule?)
  | some .boolean => .ok .boolean
  | some .instanceOf => .ok .instanceOf
  | some .currency => (options.currencyFormat).map .currency
  | some .custom => .ok .custom
  | some .date => (options.mark "convert").map .date
  | some .email => .ok .email
  | some .enumeration =>
    (options.values? "values").map fun values? => .enumeration (values?.getD [])
  | some .equal => do
    let field ← options.text? "field"
    let strict ← options.mark "strict"
    return .equal (Entries.get? options "value") field strict
  | some .forbidden => .ok .forbidden
  | some .function => .ok .function
  | some .luhn => .ok .luhn
  | some .mac => .ok .mac
  | some .multi => .ok (.multi parts.memberRules)
  | some .number => (options.numberLimits).map .number
  | some .object => (options.objectLimits).map (.object parts.fieldRules?)
  | some .objectId => .ok .objectId
  | some .record => .ok (.record parts.recordRules.1 parts.recordRules.2)
  | some .text => (options.textLimits).map .text
  | some .tuple => .ok (.tuple parts.memberRules)
  | some .url => .ok .url
  | some .uuid =>
    (options.natural? "version").map fun version? =>
      .uuid (version?.map fun version => min version 255)
  | some .other => .ok (.other name)
  | Option.none => .ok (.other name)

/-- The rule with the given type name, from its options and the rules it nests.
The options of the kind are read first, then those of every kind. -/
def Rule.assemble (name : String) (options : Options) (parts : RuleParts Rule) :
    Except RuleFault Rule := do
  let kind ← RuleKind.assemble name options parts
  let optional ← options.mark "optional"
  let nullable ← options.mark "nullable"
  let notes ← Notes.ofEntries options
  return {
    kind := kind
    optional := optional
    nullable := nullable
    fallback := Entries.get? options "default"
    notes := notes }

end RouteDocs
