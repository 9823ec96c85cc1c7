import RouteDocs.Settings
import RouteDocs.Store.Lift

namespace RouteDocs

/-!
# Parameters and bodies

The path gives the path parameters.  The fields of the parameters that are not
in the path go to the query or, for the methods that send a body, into one body
component named after the action.  A byte stream and a file upload have bodies
of their own.

Components are stored while the parameters are worked out.  When that fails,
what was stored before the failure stays stored.
-/

inductive ParameterLocation where
  | path
  | query
deriving DecidableEq

def ParameterLocation.name (location : ParameterLocation) : String :=
  match location with
  | .path => "path"
  | .query => "query"

/-- A parameter of an operation. -/
structure Parameter where
  name : String
  location : ParameterLocation
  required : Bool
  description : Option String := none
  schema : Schema
  /-- The properties of the value are sent one by one. -/
  deepObject : Bool := false

namespace Parameter

/-- A path parameter: a text that must be sent. -/
def ofPath (name : String) : Parameter where
  name := name
  location := .path
  required := true
  schema := .typed .string

def render (version : Version) (parameter : Parameter) : Json :=
  .object (Json.ofOptional
    [("name", some (.text parameter.name)),
     ("in", some (.text parameter.location.name)),
     ("required", some (.bool parameter.required)),
     ("description", parameter.description.map .text),
     ("style", if parameter.deepObject then some (.text "deepObject") else none),
     ("explode", if parameter.deepObject then some (.bool true) else none),
     ("schema", some (parameter.schema.render version))])

end Parameter

structure RequestBody where
  /-- The media types of the body; all have the same schema. -/
  contentTypes : List String
  schema : Schema
  required : Bool

def RequestBody.render (version : Version) (body : RequestBody) : Json :=
  let content := body.contentTypes.map fun contentType =>
    (contentType, Json.object [("schema", body.schema.render version)])
  .object
    [("required", .bool body.required), ("content", .object (Entries.ofPairs content))]

/-- What an operation takes. -/
structure Inputs where
  pathParameters : List Parameter := []
  queryParameters : List Parameter := []
  body : Option RequestBody := none

/-- All parameters, those of the path first. -/
def Inputs.parameters (inputs : Inputs) : List Parameter :=
  inputs.pathParameters ++ inputs.queryParameters

/-- A computation that stores components and may fail. -/
abbrev Extraction (α : Type) : Type := ExceptT Fault (StateM Store) α

namespace Extraction

/-- A conversion, which stores nothing. -/
def ofConversion {α : Type} (result : Except Fault α) : Extraction α :=
  ExceptT.mk (pure result)

/-- A change of the store, which does not fail. -/
def ofStore {α : Type} (change : Store -> α × Store) : Extraction α :=
  ExceptT.lift change

end Extraction

/-- What stays the same while the parameters of one operation are worked out. -/
structure OperationContext where
  table : MapperTable
  settings : Settings
  method : Method
  /-- The path in normal form. -/
  fullPath : String
  route : Route
  docs : OperationDocs

namespace OperationContext

def placeholders (context : OperationContext) : List String :=
  Path.placeholders context.fullPath

/-- The action that a body is named after. -/
def requiredAction (context : OperationContext) : Except Fault String :=
  match context.route.action with
  | some action => .ok action
  | none => .error (.missingAction context.fullPath)

/-- A path parameter as it is documented.  A rule that does not appear in the
document leaves the parameter a text. -/
def documentedParameter (context : OperationContext) (declared : PathParameter) :
    Extraction Parameter := do
  let plain : Parameter :=
    { Parameter.ofPath declared.name with description := declared.description }
  match declared.rule with
  | none => return plain
  | some rule =>
    match ← Extraction.ofConversion (context.table.convertRule rule) with
    | none => return plain
    | some fragment =>
      let name := componentName (context.route.action.getD "path") declared.name
      let schema ← Extraction.ofStore (Store.lift fragment.schema name)
      return { plain with schema := schema }

/-- The path parameters: those that are documented, or one per placeholder. -/
def pathParameters (context : OperationContext) : Extraction (List Parameter) :=
  match context.docs.pathParameters with
  | none => return context.placeholders.map Parameter.ofPath
  | some declared => declared.mapM context.documentedParameter

/-- The fields that appear in the document and not in the path. -/
def fieldsOutsidePath (context : OperationContext) (fields : Entries Rule) :
    Except Fault (Entries Fragment) :=
  (context.table.convertFields fields).map fun converted =>
    converted.filter fun entry => !context.placeholders.contains entry.1

def queryParameter (context : OperationContext) (name : String) (fragment : Fragment)
    (store : Store) : Parameter × Store :=
  let component := componentName (context.route.action.getD context.fullPath) name
  let (schema, filled) := Store.lift fragment.schema component store
  ({ name := name
     location := .query
     required := !fragment.optional
     schema := schema
     deepObject := (fragment.schema.object?.map SchemaObject.isObject).getD false }, filled)

def queryParameters (context : OperationContext) (fields : Entries Fragment) (store : Store) :
    List Parameter × Store :=
  match fields with
  | [] => ([], store)
  | (name, fragment) :: rest =>
    let (parameter, store) := context.queryParameter name fragment store
    let (others, store) := context.queryParameters rest store
    (parameter :: others, store)

/-- The media types that the route reads, each once. -/
def contentTypes (context : OperationContext) : List String :=
  let types := context.route.bodyParsers.foldl
    (fun known parser =>
      if known.contains parser.mediaType then known else known ++ [parser.mediaType]) []
  if types.isEmpty then context.settings.defaultContentTypes else types

def streamBody : RequestBody where
  contentTypes := ["application/octet-stream"]
  schema := .inline (.formatted "binary")
  required := true

def streamInputs (context : OperationContext) : Extraction (List Parameter × Option RequestBody) :=
  match context.route.params.bind Params.fieldRules? with
  | none => return ([], some streamBody)
  | some (fields, _) => do
    let converted ← Extraction.ofConversion (context.fieldsOutsidePath fields)
    let parameters ← Extraction.ofStore (context.queryParameters converted)
    return (parameters, some streamBody)

/-- The fields that go with an upload.  Parameters that are one value have
none; only an object may stand there. -/
def uploadFields (context : OperationContext) : Except Fault (Option (Entries Rule × Notes)) :=
  match context.route.params with
  | none => .ok none
  | some params =>
    match params.fieldRules? with
    | some fields => .ok (some fields)
    | none =>
      if params.isObjectRule then .ok none else .error (.multipartRoot context.fullPath)

def fileSchema (context : OperationContext) (options : UploadOptions) : SchemaObject :=
  let field := options.fileField.getD context.settings.multipartFileField
  let file : SchemaObject := .formatted "binary"
  let files : SchemaObject :=
    { type := some .array, items := some (.inline file), maxItems := options.maxFiles }
  { type := some .object
    properties := [(field, .inline (if options.maxFiles == some 1 then file else files))]
    required := [field] }

/-- The schema of an upload: the files, and the component of the other fields
where there are any. -/
def uploadSchema (context : OperationContext) (options : UploadOptions) : Extraction Schema := do
  let fields? ← Extraction.ofConversion context.uploadFields
  let files := Schema.inline (context.fileSchema options)
  match fields? with
  | none => return files
  | some (fields, notes) =>
    let converted ← Extraction.ofConversion (context.fieldsOutsidePath fields)
    if converted.isEmpty then return files
    else
      let action ← Extraction.ofConversion context.requiredAction
      let reference ← Extraction.ofStore fun store => store.registerObject action converted notes
      return .inline { allOf := [files, reference] }

def uploadBody (context : OperationContext) (options : UploadOptions) : Extraction RequestBody := do
  let schema ← context.uploadSchema options
  return { contentTypes := ["multipart/form-data"], schema := schema, required := true }

/-- Whether the method sends a body. -/
def sendsBody (context : OperationContext) : Bool :=
  context.settings.bodyMethods.contains context.method

/-- Where a field goes: where its documentation says, else by the method. -/
def placement (context : OperationContext) (field : String) : Placement :=
  (context.docs.parameterLocations.get? field).getD
    (if context.sendsBody then .body else .query)

/-- The body made of one value, for the methods that send a body. -/
def valueBody (context : OperationContext) (rule : Rule) : Extraction (Option RequestBody) := do
  if context.sendsBody then
    match ← Extraction.ofConversion (context.table.convertRule rule) with
    | none => return none
    | some fragment =>
      let action ← Extraction.ofConversion context.requiredAction
      let schema ← Extraction.ofStore (Store.lift fragment.schema action)
      return some
        { contentTypes := context.contentTypes
          schema := schema
          required := !fragment.optional }
  else return none

/-- The body made of fields, which becomes a component named after the action.
It must be sent when one of the fields must. -/
def fieldBody (context : OperationContext) (fields : Entries Fragment) (notes : Notes) :
    Extraction (Option RequestBody) := do
  if fields.isEmpty then return none
  else
    let action ← Extraction.ofConversion context.requiredAction
    let reference ← Extraction.ofStore fun store => store.registerObject action fields notes
    let object ← Extraction.ofConversion ((← get).resolve reference)
    return some
      { contentTypes := context.contentTypes
        schema := reference
        required := !object.required.isEmpty }

/-- The parameters of an ordinary route. -/
def standardInputs (context : OperationContext) :
    Extraction (List Parameter × Option RequestBody) :=
  match context.route.params with
  | none => return ([], none)
  | some params =>
    match params.fieldRules? with
    | some (fields, notes) => do
      let converted ← Extraction.ofConversion (context.fieldsOutsidePath fields)
      let inQuery := converted.filter fun entry => context.placement entry.1 == .query
      let inBody := converted.filter fun entry => context.placement entry.1 == .body
      let parameters ← Extraction.ofStore (context.queryParameters inQuery)
      let body ← context.fieldBody inBody notes
      return (parameters, body)
    | none =>
      match params with
      | .root rule => return ([], ← context.valueBody rule)
      | .fields _ _ => return ([], none)

/-- The parameters besides those of the path, and the body. -/
def otherInputs (context : OperationContext) :
    Extraction (List Parameter × Option RequestBody) :=
  match context.route.kind with
  | .stream => context.streamInputs
  | .multipart options => return ([], some (← context.uploadBody options))
  | .standard => context.standardInputs

/-- Everything that the operation takes.  A route without an action takes only
path parameters when it is documented for itself. -/
def inputs (context : OperationContext) : Extraction Inputs := do
  let pathParameters ← context.pathParameters
  if context.route.joker && context.route.action.isNone then
    return { pathParameters := pathParameters }
  else
    let (queryParameters, body) ← context.otherInputs
    return { pathParameters, queryParameters, body }

end OperationContext
end RouteDocs
