import RouteDocs.Operation.Parameters
import RouteDocs.Schema.Same

namespace RouteDocs

/-!
# Operations

An operation is what one method does at one path.  It is built from a route
into a store of its own.  Two operations are the same definition when they
agree in everything but the servers.
-/

structure Operation where
  summary : Option String
  description : Option String
  operationId : Option String
  deprecated : Option Bool
  tags : List String
  inputs : Inputs
  responses : Json
  security : Option Json
  extra : Entries Json
  servers : List Server
  /-- The action of the route or, without one, the path. -/
  claimedBy : String

/-- Whether two parameters are the same. -/
def Parameter.same (left right : Parameter) : Bool :=
  left.name == right.name && left.location == right.location &&
  left.required == right.required && left.description == right.description &&
  left.schema.same right.schema && left.deepObject == right.deepObject

def Parameter.sameList (left right : List Parameter) : Bool :=
  match left, right with
  | [], [] => true
  | first :: left, second :: right => first.same second && sameList left right
  | _, _ => false

def RequestBody.same (left right : RequestBody) : Bool :=
  left.contentTypes == right.contentTypes && left.schema.same right.schema &&
  left.required == right.required

/-- Whether two operations take the same. -/
def Inputs.same (left right : Inputs) : Bool :=
  Parameter.sameList left.pathParameters right.pathParameters &&
  Parameter.sameList left.queryParameters right.queryParameters &&
  sameOptional RequestBody.same left.body right.body

namespace Operation

/-- Whether two operations agree in everything but the servers. -/
def sameDefinition (left right : Operation) : Bool :=
  left.summary == right.summary && left.description == right.description &&
  left.operationId == right.operationId && left.deprecated == right.deprecated &&
  left.tags == right.tags && left.inputs.same right.inputs &&
  left.responses.same right.responses &&
  sameOptional Json.same left.security right.security &&
  (Json.object left.extra).same (.object right.extra) && left.claimedBy == right.claimedBy

/-- A list that is left out when it is empty. -/
def nonEmpty (values : List Json) : Option Json :=
  if values.isEmpty then none else some (.list values)

/-- The JSON form of an operation.  Extra keys come last and replace nothing. -/
def render (version : Version) (operation : Operation) : Json :=
  let own := Json.ofOptional
    [("tags", nonEmpty (operation.tags.map .text)),
     ("summary", operation.summary.map .text),
     ("description", operation.description.map .text),
     ("operationId", operation.operationId.map .text),
     ("deprecated", operation.deprecated.map .bool),
     ("parameters", nonEmpty (operation.inputs.parameters.map (Parameter.render version))),
     ("requestBody", operation.inputs.body.map (RequestBody.render version)),
     ("responses", some operation.responses),
     ("security", operation.security),
     ("servers", nonEmpty (operation.servers.map Server.toJson))]
  .object (operation.extra.foldl (fun entries entry => Entries.putNew entries entry.1 entry.2) own)

end Operation

namespace OperationContext

/-- The summary of the operation; an empty one counts as none.  Only the
summary of an action goes through the template. -/
def summary (context : OperationContext) : Option String :=
  let text? := match context.route.action with
    | some action =>
      some (context.settings.summaryTemplate.render
        { summary := context.docs.summary.getD ""
          action := action
          autoAlias := if context.route.autoAlias then context.settings.autoAliasSuffix else "" })
    | none => context.docs.summary
  text?.filter fun text => !text.isEmpty

/-- The tags of the operation: those of its documentation, or its service. -/
def tags (context : OperationContext) : List String :=
  match context.docs.tags with
  | some tags => tags
  | none =>
    match context.route.service with
    | some service => if service.name.isEmpty then [] else [service.name]
    | none => []

/-- The operation, given what it takes.  Without an action most of the
documentation has nothing to describe. -/
def operation (context : OperationContext) (inputs : Inputs) : Operation :=
  let responses := context.docs.responses.getD context.settings.defaultResponses
  let servers := context.route.server.toList
  match context.route.action with
  | none =>
    { summary := context.summary
      description := none
      operationId := none
      deprecated := none
      tags := []
      inputs, responses
      security := none
      extra := []
      servers
      claimedBy := context.fullPath }
  | some action =>
    { summary := context.summary
      description := context.docs.description
      operationId := context.docs.operationId.or (some action)
      deprecated := context.docs.deprecated
      tags := context.tags
      inputs, responses
      security := context.docs.security
      extra := context.docs.extra
      servers
      claimedBy := action }

/-- Build the operation into an empty store: the operation with the
components made for it. -/
def build (context : OperationContext) : Except Fault (Operation × Store) :=
  match (context.inputs.run {} : Except Fault Inputs × Store) with
  | (.ok inputs, store) => .ok (context.operation inputs, store)
  | (.error fault, _) => .error fault

end OperationContext
end RouteDocs
