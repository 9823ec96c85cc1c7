import RouteDocs.Rule.Basic
import RouteDocs.Rule.Fault

namespace RouteDocs

/-!
# Why a document cannot be made

The causes that end a conversion, an extraction or a generation, each with the
data that its wording shows.
-/

/-- Why a document, or a part of one, cannot be made. -/
inductive Fault where
  /-- The table has no mapper for a kind of rule. -/
  | noMapper (tag : RuleTag)
  /-- The table has no mapper for texts, which also serves kinds known by name only. -/
  | noBaseMapper
  /-- A file upload whose parameters are one value instead of fields. -/
  | multipartRoot (path : String)
  /-- A reference to a component that is not stored. -/
  | unresolvedReference (name : String)
  /-- A body for a route without an action to name it after. -/
  | missingAction (path : String)
  | unsupportedVersion (text : String)
  | invalidRule (cause : RuleFault)
  /-- A method name that is none of the eight, in upper case. -/
  | unknownMethod (name : String)
  /-- A base document that is not an object. -/
  | baseNotObject (found : Json)
  /-- Input of the wrong shape, or, when a cause is given, input of the right
  shape with a faulty value in it. -/
  | malformed (cause : Option Fault)

inductive FaultKind where
  | notInitialized
  | multipartRootSchema
  | unresolvedReference
  | missingAction
  | unsupportedVersion
  | invalidRule
  | json
  | general
deriving DecidableEq

namespace Fault

def kind (fault : Fault) : FaultKind :=
  match fault with
  | .noMapper _ => .notInitialized
  | .noBaseMapper => .notInitialized
  | .multipartRoot _ => .multipartRootSchema
  | .unresolvedReference _ => .unresolvedReference
  | .missingAction _ => .missingAction
  | .unsupportedVersion _ => .unsupportedVersion
  | .invalidRule _ => .invalidRule
  | .unknownMethod _ => .general
  | .baseNotObject _ => .general
  | .malformed _ => .json

def message (fault : Fault) : String :=
  match fault with
  | .noMapper tag =>
    "Converter not initialized: no mapper registered for '" ++ tag.name ++ "' rules"
  | .noBaseMapper => "Converter not initialized: base string mapper is not registered"
  | .multipartRoot path => "Multipart route '" ++ path ++ "' cannot use a root-level rule schema"
  | .unresolvedReference name => "Unresolved component reference: " ++ name
  | .missingAction path => "Route '" ++ path ++ "' requires a request body but has no bound action"
  | .unsupportedVersion text => "Unsupported OpenAPI version: " ++ text
  | .invalidRule cause => "Invalid rule: " ++ cause.message
  | .unknownMethod name => "General Error: Unknown HTTP method: " ++ name
  | .baseNotObject found =>
    "General Error: Base document must be an object, found " ++ found.compact
  | .malformed none => "JSON Error"
  | .malformed (some cause) => "JSON Error: " ++ cause.message

/-- Whether the wording tells more than the kind: input of the wrong shape has
no wording of its own. -/
def hasMessage (fault : Fault) : Bool :=
  match fault with
  | .malformed none => false
  | _ => true

end Fault
end RouteDocs
