import RouteDocs.Operation.Basic

namespace RouteDocs

/-!
# Claims on paths

A document is assembled route by route in the order of their paths.  Each
route claims its methods at its path, one after the other.  The first claim is
documented.  A later claim either adds its server to the documented operation,
when that is all it would change, or is dropped with a warning.

What one route stores again for another of its methods is no collision.  A
claim that fails leaves everything as it was before the claim.
-/

structure Documented where
  path : String
  method : Method
  operation : Operation

/-- What has been assembled so far. -/
structure Assembly where
  tags : List Tag := []
  servers : List Server := []
  documented : List Documented := []
  store : Store := {}
  warnings : List Warning := []

/-- Add a tag to a list.  The first entry of a name stays, unless it has no
description and the new one has. -/
def Tag.register (tags : List Tag) (tag : Tag) : List Tag :=
  match tags with
  | [] => [tag]
  | first :: rest =>
    if first.name = tag.name then
      if first.description.isNone && tag.description.isSome then tag :: rest else first :: rest
    else first :: register rest tag

/-- Add a server to a list that has each address only once. -/
def Server.register (servers : List Server) (server : Server) : List Server :=
  if servers.any fun known => known.url == server.url then servers else servers ++ [server]

namespace Assembly

def find? (assembly : Assembly) (path : String) (method : Method) : Option Operation :=
  (assembly.documented.find? fun entry => entry.path == path && entry.method == method).map
    Documented.operation

/-- Add a server to the operation documented for a method at a path, and to
the servers of the document. -/
def share (assembly : Assembly) (path : String) (method : Method) (server : Server) : Assembly :=
  { assembly with
    documented := assembly.documented.map fun entry =>
      if entry.path == path && entry.method == method then
        { entry with operation :=
            { entry.operation with servers := entry.operation.servers ++ [server] } }
      else entry
    servers := Server.register assembly.servers server }

def drop (assembly : Assembly) (path : String) (method : Method) (claimedBy : String) : Assembly :=
  { assembly with
    warnings := assembly.warnings ++ [.duplicateOperation path method claimedBy] }

/-- Take over the components of an accepted operation, with the warnings that
this gives rise to. -/
def absorb (assembly : Assembly) (components : Store) : Assembly :=
  let merged := assembly.store.absorb components
  { assembly with
    store := merged.withoutWarnings
    warnings := assembly.warnings ++ merged.warnings }

/-- Document an operation, with its tags and its server. -/
def accept (assembly : Assembly) (context : OperationContext) (operation : Operation) : Assembly :=
  { assembly with
    tags := (context.docs.tagDefinitions ++ operation.tags.map Tag.bare).foldl
      Tag.register assembly.tags
    servers := context.route.server.toList.foldl Server.register assembly.servers
    documented := assembly.documented ++
      [{ path := context.fullPath, method := context.method, operation := operation }] }

/-- The server that a later claim adds: it is not listed yet, and the claim
can be built and changes nothing else. -/
def sharedServer? (context : OperationContext) (existing : Operation) : Option Server :=
  match context.route.server with
  | none => none
  | some server =>
    if existing.servers.contains server then none
    else
      match context.build with
      | .ok (operation, _) => if existing.sameDefinition operation then some server else none
      | .error _ => none

end Assembly

/-- What a route has stored so far for its methods. -/
abbrev Contribution : Type := Entries SchemaObject

namespace Contribution

/-- Whether the route has stored the same under a name before. -/
def repeats (contribution : Contribution) (name : String) (object : SchemaObject) : Bool :=
  match contribution.get? name with
  | some known => known.same object
  | none => false

end Contribution

namespace OperationContext

/-- The claim of one method.  `contribution` is what the route has stored for
its earlier methods. -/
def claim (context : OperationContext) (contribution : Contribution) (assembly : Assembly) :
    Except Fault (Contribution × Assembly) :=
  match assembly.find? context.fullPath context.method with
  | some existing =>
    match Assembly.sharedServer? context existing with
    | some server =>
      .ok (contribution, assembly.share context.fullPath context.method server)
    | none =>
      .ok (contribution, assembly.drop context.fullPath context.method existing.claimedBy)
  | none =>
    match context.build with
    | .error fault => .error fault
    | .ok (operation, built) =>
      let fresh := built.retain fun name object => !contribution.repeats name object
      .ok (contribution.overlay fresh.components,
        (assembly.absorb fresh).accept context operation)

end OperationContext

/-- What stays the same during a whole generation. -/
structure Workshop where
  table : MapperTable
  settings : Settings

namespace Workshop

def context (workshop : Workshop) (route : Route) (method : Method) : OperationContext where
  table := workshop.table
  settings := workshop.settings
  method := method
  fullPath := route.fullPath
  route := route
  docs := route.mergedDocs

/-- The claims of a route, method by method.  They end at the first that fails. -/
def claimMethods (workshop : Workshop) (route : Route) (methods : List Method)
    (contribution : Contribution) (assembly : Assembly) : Assembly × Option Fault :=
  match methods with
  | [] => (assembly, none)
  | method :: rest =>
    match (workshop.context route method).claim contribution assembly with
    | .ok (contribution, assembly) => claimMethods workshop route rest contribution assembly
    | .error fault => (assembly, some fault)

/-- The claims of the routes in order.  They end at the first that fails. -/
def claimRoutes (workshop : Workshop) (routes : List Route) (assembly : Assembly) :
    Assembly × Option Fault :=
  match routes with
  | [] => (assembly, none)
  | route :: rest =>
    if route.isDocumented then
      match claimMethods workshop route route.effectiveMethods [] assembly with
      | (assembly, none) => claimRoutes workshop rest assembly
      | (assembly, some fault) => (assembly, some fault)
    else claimRoutes workshop rest assembly

end Workshop

/-- The routes in the order of their paths.  Routes of one path keep their order. -/
def Route.inPathOrder (routes : List Route) : List Route :=
  routes.mergeSort fun first second => decide (first.fullPath ≤ second.fullPath)

end RouteDocs
