import RouteDocs.Rule.Read
import RouteDocs.Yaml.Document

namespace RouteDocs
namespace Params

/-!
# Reading parameters

Parameters are an object.  Its keys are the names of fields, unless the root
mark is set: then the object without the mark is one rule for the whole value.
-/

/-- The mark that selects a rule for the whole value. -/
def rootKey : String := "$$root"

def isRoot (entries : Entries Json) : Bool :=
  match entries.get? rootKey with
  | some (.bool true) => true
  | _ => false

def read (value : Json) : Except RuleFault Params :=
  match value with
  | .object entries =>
    if isRoot entries then (Rule.read (.object (Entries.swapErase entries rootKey))).map .root
    else
      (Rule.readFields (entries.filter fun entry => !isReserved entry.1)).bind fun named =>
        (Notes.ofEntries entries).map fun notes => .fields named notes
  | found => .error (.paramsNotObject found)

def ofYaml (text : String) : Except RuleFault Params :=
  match (Yaml.read? text).bind (Node.toJson? Node.spelling?) with
  | some value => read value
  | none => .error .badYaml

end Params
end RouteDocs
