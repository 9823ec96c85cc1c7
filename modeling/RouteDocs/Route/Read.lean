import RouteDocs.Route.Basic
import RouteDocs.Rule.Params

namespace RouteDocs

/-!
# Reading routes

Routes and their documentation are records.  The documentation of an operation
is the exception: it must be a map, because its further keys are kept.  A rule
or a method that cannot be read is reported with its own cause.
-/

def Rule.readNode (node : Node) : Reading Rule := do
  let value ← node.asValue
  carrying ((Rule.read value).mapError .invalidRule)

def Params.readNode (node : Node) : Reading Params := do
  let value ← node.asValue
  carrying ((Params.read value).mapError .invalidRule)

namespace Method

def read (node : Node) : Reading Method := do
  let name ← node.asText
  carrying (ofName name)

/-- Read the methods of a route: one name or a list of names, each of which
may be a star. -/
def readSeveral (node : Node) : Reading (List Method) := do
  let names ← match node with
    | .list items _ => items.mapM Node.asPlainText
    | single => single.asPlainText.map fun name => [name]
  carrying (ofNames names)

end Method

namespace Server

def fields : List (RecordField Server) :=
  [(RecordField.of "url" Node.asText fun value server => { server with url := value }).mandatory,
   .of "description" (Node.asOptional Node.asText)
    fun value server => { server with description := value }]

def read (node : Node) : Reading Server :=
  RecordField.readRecord fields { url := "" } node

end Server

namespace Tag

def fields : List (RecordField Tag) :=
  [(RecordField.of "name" Node.asText fun value tag => { tag with name := value }).mandatory,
   .of "description" (Node.asOptional Node.asText)
    fun value tag => { tag with description := value }]

def read (node : Node) : Reading Tag :=
  RecordField.readRecord fields { name := "" } node

end Tag

namespace PathParameter

def fields : List (RecordField PathParameter) :=
  [(RecordField.of "name" Node.asText
    fun value parameter => { parameter with name := value }).mandatory,
   .of "description" (Node.asOptional Node.asText)
    fun value parameter => { parameter with description := value },
   .of "rule" (Node.asOptional Rule.readNode)
    fun value parameter => { parameter with rule := value }]

def read (node : Node) : Reading PathParameter :=
  RecordField.readRecord fields { name := "" } node

end PathParameter

namespace OperationDocs

/-- The fields of documentation; every other key is an extra one. -/
def fields : List (RecordField OperationDocs) :=
  [.of "summary" (Node.asOptional Node.asText) fun value docs => { docs with summary := value },
   .of "description" (Node.asOptional Node.asText)
    fun value docs => { docs with description := value },
   .of "operationId" (Node.asOptional Node.asText)
    fun value docs => { docs with operationId := value },
   .of "deprecated" (Node.asOptional Node.asBool)
    fun value docs => { docs with deprecated := value },
   .of "tags" (Node.asOptional (Node.asList Node.asText))
    fun value docs => { docs with tags := value },
   .of "tagDefinitions" (Node.asList Tag.read)
    fun value docs => { docs with tagDefinitions := value },
   .of "pathParameters" (Node.asOptional (Node.asList PathParameter.read))
    fun value docs => { docs with pathParameters := value },
   .of "parameterLocations" (Node.asEntries (Node.asChoice Placement.ofName?))
    fun value docs => { docs with parameterLocations := value },
   .of "responses" (Node.asOptional Node.asValue)
    fun value docs => { docs with responses := value },
   .of "security" (Node.asOptional Node.asValue)
    fun value docs => { docs with security := value }]

/-- The name of an entry that is none of the fields. -/
def extraName? (key : Node) : Option String :=
  key.spelling?.filter fun name => fields.all fun field => !(field.name == name)

def read (node : Node) : Reading OperationDocs :=
  match node with
  | .map entries => do
    let docs ← RecordField.readMap fields (RecordField.byName fields) {} entries
    let extra ← (entries.filterMap fun entry =>
      (extraName? entry.1).map fun name => (name, entry.2)).mapM fun entry =>
        entry.2.asTextKeyedValue.map fun value => (entry.1, value)
    return { docs with extra := Entries.ofPairs extra }
  | other => if other.isBlank then .ok {} else misshapen

end OperationDocs

namespace UploadOptions

def fields : List (RecordField UploadOptions) :=
  [.of "fileField" (Node.asOptional Node.asPlainText)
    fun value options => { options with fileField := value },
   .of "maxFiles" (Node.asOptional Node.asNatural)
    fun value options => { options with maxFiles := value }]

end UploadOptions

namespace RouteKind

def typeKey : String := "type"

def isType (entry : Node × Node) : Bool :=
  entry.1.text? == some typeKey

/-- Read a kind: a map with a type and the options of that type, or a list
that begins with the type.  Only an upload has options; a list may hold
nothing else for the other kinds.  The kind is taken in whole before its type
is known.  So every part of it must be readable, the options are selected by
what their keys mean, and the list may come from YAML too. -/
def read (node : Node) : Reading RouteKind :=
  if !node.isReadable then misshapen
  else
    match node with
    | .map entries => do
      match entries.filter isType with
      | [(_, type)] =>
        match ← type.asText with
        | "standard" => return .standard
        | "stream" => return .stream
        | "multipart" =>
          let options ← RecordField.readMap UploadOptions.fields
            (RecordField.byMeaning UploadOptions.fields) {}
            (entries.filter fun entry => !isType entry)
          return .multipart options
        | _ => misshapen
      | _ => misshapen
    | .list (type :: items) _ => do
      match ← type.asText with
      | "standard" => if items.isEmpty then return .standard else misshapen
      | "stream" => if items.isEmpty then return .stream else misshapen
      | "multipart" => (RecordField.readItems UploadOptions.fields {} items).map .multipart
      | _ => misshapen
    | _ => misshapen

end RouteKind

namespace ServiceInfo

def fields : List (RecordField ServiceInfo) :=
  [.of "name" Node.asText fun value service => { service with name := value },
   .of "docs" OperationDocs.read fun value service => { service with docs := value }]

def read (node : Node) : Reading ServiceInfo :=
  RecordField.readRecord fields {} node

end ServiceInfo

namespace Route

def fields : List (RecordField Route) :=
  [.of "methods" Method.readSeveral fun value route => { route with methods := value },
   .of "path" Node.asText fun value route => { route with path := value },
   .of "action" (Node.asOptional Node.asText) fun value route => { route with action := value },
   .of "params" (Node.asOptional Params.readNode) fun value route => { route with params := value },
   .of "kind" RouteKind.read fun value route => { route with kind := value },
   .of "joker" Node.asBool fun value route => { route with joker := value },
   .of "autoAlias" Node.asBool fun value route => { route with autoAlias := value },
   .of "server" (Node.asOptional Server.read) fun value route => { route with server := value },
   .of "bodyParsers" (Node.asList (Node.asChoice BodyParser.ofName?))
    fun value route => { route with bodyParsers := value },
   .of "service" (Node.asOptional ServiceInfo.read)
    fun value route => { route with service := value },
   .of "routeDocs" OperationDocs.read fun value route => { route with routeDocs := value },
   .of "actionDocs" OperationDocs.read fun value route => { route with actionDocs := value },
   .of "aliasDocs" OperationDocs.read fun value route => { route with aliasDocs := value }]

def read (node : Node) : Reading Route :=
  RecordField.readRecord fields {} node

end Route
end RouteDocs
