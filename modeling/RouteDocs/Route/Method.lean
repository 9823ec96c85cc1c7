import RouteDocs.Fault
import RouteDocs.Text.Blank
import RouteDocs.Text.Upper

namespace RouteDocs

/-!
# Request methods

The methods that can carry an operation, in the order in which a document
lists them under one path.
-/

inductive Method where
  | get
  | post
  | put
  | patch
  | delete
  | head
  | options
  | trace
deriving DecidableEq

namespace Method

def all : List Method :=
  [.get, .post, .put, .patch, .delete, .head, .options, .trace]

/-- The methods that a route without a choice of its own answers to. -/
def anyOfThem : List Method :=
  [.get, .post, .put, .patch, .delete]

def name (method : Method) : String :=
  match method with
  | .get => "GET"
  | .post => "POST"
  | .put => "PUT"
  | .patch => "PATCH"
  | .delete => "DELETE"
  | .head => "HEAD"
  | .options => "OPTIONS"
  | .trace => "TRACE"

def key (method : Method) : String :=
  match method with
  | .get => "get"
  | .post => "post"
  | .put => "put"
  | .patch => "patch"
  | .delete => "delete"
  | .head => "head"
  | .options => "options"
  | .trace => "trace"

/-- The place of the method in the order of documents. -/
def rank (method : Method) : Nat :=
  all.idxOf method

/-- The method with a name, in whatever case and with blanks around it. -/
def ofName (name : String) : Except Fault Method :=
  let upperName := Text.upper (Text.trim name)
  match all.find? fun method => method.name == upperName with
  | some method => .ok method
  | none => .error (.unknownMethod upperName)

/-- The methods that one listed name stands for: a star stands for several. -/
def ofListed (name : String) : Except Fault (List Method) :=
  if Text.trim name == "*" then .ok anyOfThem else (ofName name).map fun method => [method]

def addNew (methods more : List Method) : List Method :=
  more.foldl
    (fun known method => if known.contains method then known else known ++ [method]) methods

/-- The methods that listed names stand for, each once. -/
def ofNames (names : List String) : Except Fault (List Method) :=
  names.foldlM (fun methods name => (ofListed name).map (addNew methods)) []

end Method
end RouteDocs
