import RouteDocs.Document.Generator
import RouteDocs.Json.Reader
import RouteDocs.Yaml.Document

namespace RouteDocs
namespace Command

/-!
# Commands

What the program does for one call, from texts to a text.  `convert` shows the
schema of one rule.  `generate` makes the document of an input file, which
holds settings, a base document and routes, in YAML or JSON.
-/

/-- The rule that a text gives: as JSON where it is JSON, else as shorthand. -/
def readRule (text : String) : Except RuleFault Rule :=
  match Json.read? text with
  | some value => Rule.read value
  | none => Rule.ofShorthand text

/-- The schema of a rule, or the missing value when the rule does not appear
in a document.  The version is checked before the rule. -/
def convert (ruleText versionText : String) : Except Fault String :=
  match Version.ofText? versionText with
  | none => .error (.unsupportedVersion versionText)
  | some version => do
    let rule ← (readRule ruleText).mapError .invalidRule
    let fragment? ← MapperTable.builtin.convertRule rule
    return match fragment? with
      | some fragment => (fragment.schema.render version).pretty
      | none => Json.null.pretty

structure InputFile where
  settings : Settings := {}
  base : Json := .null
  routes : List Route := []

namespace InputFile

def fields : List (RecordField InputFile) :=
  [.of "settings" Settings.read fun value file => { file with settings := value },
   .of "base" Node.asValue fun value file => { file with base := value },
   .of "routes" (Node.asList Route.read) fun value file => { file with routes := value }]

def ofText? (text : String) : Option InputFile :=
  match (Yaml.read? text).map (RecordField.readRecord fields {}) with
  | some (.ok file) => some file
  | _ => none

end InputFile

/-- Why an input file gives no document. -/
inductive FileFault where
  /-- The file cannot be read as settings, base and routes. -/
  | unreadable
  | generation (fault : Fault)

def FileFault.message (fault : FileFault) : String :=
  match fault with
  | .unreadable => "Invalid input"
  | .generation fault => fault.message

def generate (fileText versionText : String) : Except FileFault String :=
  match InputFile.ofText? fileText with
  | none => .error .unreadable
  | some file =>
    let start : Generator := { settings := file.settings }
    match start.withBase file.base with
    | .error fault => .error (.generation fault)
    | .ok generator =>
      match (generator.generate versionText file.routes).1 with
      | .ok document => .ok document.pretty
      | .error fault => .error (.generation fault)

end Command
end RouteDocs
