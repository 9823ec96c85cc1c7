import RouteDocs.Operation.Summary
import RouteDocs.Route.Read

namespace RouteDocs

/-!
# Settings

What can be chosen for a generation besides the routes and the base document.
-/

/-- How long stored components live. -/
inductive Lifetime where
  /-- The store is emptied before every generation. -/
  | perCall
  /-- The store is kept from one generation to the next. -/
  | persistent
deriving DecidableEq

def Lifetime.ofName? (name : String) : Option Lifetime :=
  if name == "per_call" then some .perCall
  else if name == "persistent" then some .persistent
  else none

structure Settings where
  summaryTemplate : SummaryTemplate := .standard
  /-- The media types of a body where the route reads none in particular. -/
  defaultContentTypes : List String := ["application/json"]
  /-- The field of the file in an upload. -/
  multipartFileField : String := "file"
  /-- The responses of an operation that documents none. -/
  defaultResponses : Json := .object [("200", .object [("description", .text "")])]
  /-- The methods whose parameters are sent in the body. -/
  bodyMethods : List Method := [.post, .put, .patch]
  componentLifetime : Lifetime := .perCall
  /-- What marks the summary of a route that was not asked for. -/
  autoAliasSuffix : String := " [autoAlias]"

namespace Settings

def fields : List (RecordField Settings) :=
  [.of "summary_template" Node.asText
    fun value settings => { settings with summaryTemplate := .pattern value },
   .of "default_content_types" (Node.asList Node.asText)
    fun value settings => { settings with defaultContentTypes := value },
   .of "multipart_file_field" Node.asText
    fun value settings => { settings with multipartFileField := value },
   .of "default_responses" Node.asValue
    fun value settings => { settings with defaultResponses := value },
   .of "body_methods" (Node.asList Method.read)
    fun value settings => { settings with bodyMethods := value },
   .of "component_lifetime" (Node.asChoice Lifetime.ofName?)
    fun value settings => { settings with componentLifetime := value },
   .of "auto_alias_suffix" Node.asText
    fun value settings => { settings with autoAliasSuffix := value }]

def read (node : Node) : Reading Settings :=
  RecordField.readRecord fields {} node

end Settings
end RouteDocs
