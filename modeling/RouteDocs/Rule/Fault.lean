import RouteDocs.Json.Written

namespace RouteDocs

/-!
# Why a rule cannot be read

Every way in which a value fails to be a rule is a cause of its own.  The
wording lies in `message` alone; a fault inside a field names the field first.
-/

/-- What an option of a rule has to be. -/
inductive OptionForm where
  | truth
  | natural
  | number
  | text
  | list
  | rules
deriving DecidableEq

def OptionForm.phrase (form : OptionForm) : String :=
  match form with
  | .truth => "a boolean"
  | .natural => "a non-negative integer"
  | .number => "a number"
  | .text => "a string"
  | .list => "a list"
  | .rules => "a list of rules"

/-- Why a value is not a rule or not a description of parameters. -/
inductive RuleFault where
  /-- A shorthand whose first part is blank. -/
  | emptyShorthand
  | notARule (found : Json)
  | typeNotText (found : Json)
  /-- The type of a nested object that is not a shorthand. -/
  | nestedTypeNotText (found : Json)
  /-- Declared fields that are not an object. -/
  | fieldsNotObject (found : Json)
  | paramsNotObject (found : Json)
  /-- An option of the wrong form. -/
  | badOption (name : String) (form : OptionForm) (found : Json)
  /-- Notes that cannot be read.  What their own reader says of them is left out, here and
  in the message. -/
  | badNotes
  | badYaml
  /-- A fault in the rule of a field. -/
  | inField (name : String) (cause : RuleFault)

def RuleFault.message (fault : RuleFault) : String :=
  match fault with
  | .emptyShorthand => "empty shorthand rule"
  | .notARule found => "expected a string, array or object rule, found " ++ found.compact
  | .typeNotText found => "'type' must be a string, found " ++ found.compact
  | .nestedTypeNotText found => "'$$type' must be a shorthand string, found " ++ found.compact
  | .fieldsNotObject found => "object 'properties' must be a map, found " ++ found.compact
  | .paramsNotObject found => "a rule schema must be an object, found " ++ found.compact
  | .badOption name form found =>
    "'" ++ name ++ "' must be " ++ form.phrase ++ ", found " ++ found.compact
  | .badNotes => "invalid '$$oa'"
  | .badYaml => "Failed to parse rule YAML"
  | .inField name cause => "field '" ++ name ++ "': " ++ cause.message

end RouteDocs
