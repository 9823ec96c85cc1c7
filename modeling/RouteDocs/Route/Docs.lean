import RouteDocs.Rule.Basic

namespace RouteDocs

/-!
# Documentation of an operation

An operation can be documented at four levels, and each level may set only a
part.  `merge` lays a stronger level over a weaker one.
-/

/-- Where a field of the parameters is documented. -/
inductive Placement where
  | query
  | body
deriving DecidableEq

def Placement.name (placement : Placement) : String :=
  match placement with
  | .query => "query"
  | .body => "body"

def Placement.ofName? (name : String) : Option Placement :=
  if name == "query" then some .query else if name == "body" then some .body else none

/-- Where an operation is served. -/
structure Server where
  url : String
  description : Option String := none
deriving DecidableEq

def Server.toJson (server : Server) : Json :=
  .object (Json.ofOptional
    [("url", some (.text server.url)), ("description", server.description.map .text)])

/-- A group of operations. -/
structure Tag where
  name : String
  description : Option String := none
deriving DecidableEq

def Tag.bare (name : String) : Tag where
  name := name

def Tag.toJson (tag : Tag) : Json :=
  .object (Json.ofOptional
    [("name", some (.text tag.name)), ("description", tag.description.map .text)])

/-- A documented path parameter. -/
structure PathParameter where
  name : String
  description : Option String := none
  rule : Option Rule := none

/-- The documentation at one level. -/
structure OperationDocs where
  summary : Option String := none
  description : Option String := none
  operationId : Option String := none
  deprecated : Option Bool := none
  tags : Option (List String) := none
  tagDefinitions : List Tag := []
  /-- The path parameters, in place of those read off the path. -/
  pathParameters : Option (List PathParameter) := none
  parameterLocations : Entries Placement := []
  responses : Option Json := none
  security : Option Json := none
  /-- Further keys of the operation, shown as they are. -/
  extra : Entries Json := []

namespace OperationDocs

/-- Lay a stronger level over a weaker one.  What the stronger level sets wins;
tag definitions are collected, the weaker ones first. -/
def merge (weaker stronger : OperationDocs) : OperationDocs where
  summary := stronger.summary.or weaker.summary
  description := stronger.description.or weaker.description
  operationId := stronger.operationId.or weaker.operationId
  deprecated := stronger.deprecated.or weaker.deprecated
  tags := stronger.tags.or weaker.tags
  tagDefinitions := weaker.tagDefinitions ++ stronger.tagDefinitions
  pathParameters := stronger.pathParameters.or weaker.pathParameters
  parameterLocations := weaker.parameterLocations.overlay stronger.parameterLocations
  responses := stronger.responses.or weaker.responses
  security := stronger.security.or weaker.security
  extra := weaker.extra.overlay stronger.extra

end OperationDocs
end RouteDocs
