import RouteDocs.Rule.Options
import RouteDocs.Text.Blank

namespace RouteDocs

/-!
# Shorthand rules

A shorthand is a type name followed by options, all separated by bars, as in
`string|optional|min:3`.  An option with a colon has the value behind its first
colon; an option without one is a mark that is set.  A type name that ends in
a pair of brackets stands for a list whose items have the type in front of them.

The values of options hold no bars, so a rule nested in a shorthand is a type
name without options, and reading a shorthand ends after two levels.
-/

namespace Shorthand

/-- The value an option text stands for: a truth value, an integer, a finite
number, or the text itself. -/
def value (raw : List Char) : Json :=
  if raw = "true".toList then .bool true
  else if raw = "false".toList then .bool false
  else
    match Decimal.integer? raw with
    | some number => .integer number
    | none =>
      match Decimal.real? raw with
      | some number => .real number
      | none => .text (String.ofList raw)

/-- The option a trimmed part stands for. -/
def entry (part : List Char) : String × Json :=
  match Text.splitFirst ':' part with
  | some (name, raw) => (String.ofList (Text.trimList name), value (Text.trimList raw))
  | none => (String.ofList part, .bool true)

/-- The options that trimmed parts stand for.  Empty parts are passed over; a
repeated name keeps its first place and takes its last value. -/
def options (parts : List (List Char)) : Options :=
  Entries.ofPairs ((parts.filter fun part => !part.isEmpty).map entry)

/-- The trimmed parts between the bars. -/
def parts (text : String) : List (List Char) :=
  (Text.pieces '|' text.toList).map Text.trimList

end Shorthand

namespace RuleParts

/-- Read the nested values one by one. -/
def readWith (read : Json -> Except RuleFault Rule) (parts : RuleParts Json) :
    Except RuleFault (RuleParts Rule) :=
  match parts with
  | .none => .ok .none
  | .items item => (item.mapM read).map .items
  | .record key value => do
    let keyRule ← key.mapM read
    let valueRule ← value.mapM read
    return .record keyRule valueRule
  | .members rules => (rules.mapM read).map .members
  | .fields named => do
    let rules ← named.mapM fun entries =>
      entries.mapM fun entry =>
        ((read entry.2).mapError (.inField entry.1)).map fun rule => (entry.1, rule)
    return .fields rules

end RuleParts

namespace Rule

/-- The rule of a type name with options, given how nested values are read.  A
name that ends in brackets makes a list of what the rest of the name stands for. -/
def ofHead (read : Json -> Except RuleFault Rule) (head : List Char) (options : Options) :
    Except RuleFault Rule := do
  let typed (name : String) : Except RuleFault Rule := do
    let parts ← RuleParts.ofOptions name options
    let rules ← parts.readWith read
    Rule.assemble name options rules
  match Text.withoutEnding ['[', ']'] head with
  | none => typed (String.ofList head)
  | some itemName =>
    let rule ← typed RuleTag.array.name
    let item ← Rule.assemble (String.ofList itemName) [] .none
    match rule.kind with
    | .array _ limits => return { rule with kind := .array (some item) limits }
    | _ => return rule

def ofName (text : String) : Except RuleFault Rule :=
  match Text.trimList text.toList with
  | [] => .error .emptyShorthand
  | head => ofHead (fun found => .error (.notARule found)) head []

/-- The rule nested in an option of a shorthand. -/
def ofOptionValue (value : Json) : Except RuleFault Rule :=
  match value with
  | .text name => ofName name
  | found => .error (.notARule found)

def ofShorthand (text : String) : Except RuleFault Rule :=
  match Shorthand.parts text with
  | [] => .error .emptyShorthand
  | [] :: _ => .error .emptyShorthand
  | head :: others => ofHead ofOptionValue head (Shorthand.options others)

end Rule
end RouteDocs
