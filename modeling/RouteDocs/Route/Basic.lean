import RouteDocs.Route.Docs
import RouteDocs.Route.Method
import RouteDocs.Route.Path

namespace RouteDocs

/-!
# Routes

A route answers requests of some methods at a path and hands them to an
action.  A route without an action is documented only when it says so.
-/

/-- A kind of request body that a route can read. -/
inductive BodyParser where
  | json
  | urlencoded
  | text
  | raw
deriving DecidableEq

namespace BodyParser

def mediaType (parser : BodyParser) : String :=
  match parser with
  | .json => "application/json"
  | .urlencoded => "application/x-www-form-urlencoded"
  | .text => "text/plain"
  | .raw => "application/octet-stream"

def ofName? (name : String) : Option BodyParser :=
  if name == "json" then some .json
  else if name == "urlencoded" then some .urlencoded
  else if name == "text" then some .text
  else if name == "raw" then some .raw
  else none

end BodyParser

/-- The options of a file upload. -/
structure UploadOptions where
  /-- The field of the file, where it is not that of the settings. -/
  fileField : Option String := none
  /-- The greatest number of files; one file stands without a list. -/
  maxFiles : Option Nat := none
deriving DecidableEq

/-- What the body of a request holds. -/
inductive RouteKind where
  | standard
  /-- Files, with the parameters as further fields. -/
  | multipart (options : UploadOptions)
  /-- Bytes. -/
  | stream
deriving DecidableEq

structure ServiceInfo where
  name : String := ""
  docs : OperationDocs := {}

structure Route where
  methods : List Method := []
  path : String := ""
  action : Option String := none
  params : Option Params := none
  kind : RouteKind := .standard
  /-- The route is documented although it has no action. -/
  joker : Bool := false
  /-- The route was made for an action without being asked for. -/
  autoAlias : Bool := false
  server : Option Server := none
  bodyParsers : List BodyParser := []
  service : Option ServiceInfo := none
  routeDocs : OperationDocs := {}
  actionDocs : OperationDocs := {}
  aliasDocs : OperationDocs := {}

namespace Route

instance : Inhabited Route := ⟨{}⟩

/-- The methods that are documented. -/
def effectiveMethods (route : Route) : List Method :=
  if route.methods.isEmpty then Method.anyOfThem else route.methods

def fullPath (route : Route) : String :=
  Path.normalize route.path

def serviceDocs (route : Route) : OperationDocs :=
  match route.service with
  | some service => service.docs
  | none => {}

/-- The documentation of all levels: the service is the weakest, then come the
route, the action and the alias. -/
def mergedDocs (route : Route) : OperationDocs :=
  ((route.serviceDocs.merge route.routeDocs).merge route.actionDocs).merge route.aliasDocs

/-- Whether the route appears in a document. -/
def isDocumented (route : Route) : Bool :=
  route.action.isSome || route.joker

end Route
end RouteDocs
