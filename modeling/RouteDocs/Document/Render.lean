import RouteDocs.Document.Assembly
import RouteDocs.Rule.Options

namespace RouteDocs

/-!
# The finished document

The generated parts are laid into the base document.  What the base has under
the same key stays, paths are in the order of their names, and no reserved key
is left anywhere.
-/

namespace Json

mutual

/-- Take out every reserved key, at every depth. -/
def withoutReserved (value : Json) : Json :=
  match value with
  | .list items => .list (withoutReservedItems items)
  | .object entries => .object (withoutReservedEntries entries)
  | .null => .null
  | .bool flag => .bool flag
  | .integer number => .integer number
  | .real number => .real number
  | .text characters => .text characters

def withoutReservedItems (items : List Json) : List Json :=
  match items with
  | [] => []
  | item :: rest => withoutReserved item :: withoutReservedItems rest

def withoutReservedEntries (entries : List (String × Json)) : List (String × Json) :=
  match entries with
  | [] => []
  | (key, value) :: rest =>
    if isReserved key then withoutReservedEntries rest
    else (key, withoutReserved value) :: withoutReservedEntries rest

end

/-- The entries of an optional object; anything else has none. -/
def entriesOf (value : Option Json) : Entries Json :=
  match value with
  | some (.object entries) => entries
  | _ => []

end Json

def Entries.sortedByName (entries : Entries Json) : Entries Json :=
  entries.mergeSort fun first second => decide (first.1 ≤ second.1)

namespace Document

/-- Lay one operation into the paths.  A path that the base has but does not
describe by an object stays as it is, and so does an operation of the base. -/
def layOperation (version : Version) (paths : Entries Json) (entry : Documented) : Entries Json :=
  match paths.get? entry.path with
  | none =>
    paths.put entry.path (.object [(entry.method.key, entry.operation.render version)])
  | some (.object item) =>
    paths.put entry.path
      (.object (Entries.putNew item entry.method.key (entry.operation.render version)))
  | some _ => paths

/-- The paths of the document.  The operations of a path follow the order of methods. -/
def renderPaths (version : Version) (base : Option Json) (documented : List Documented) : Json :=
  let inOrder := documented.mergeSort fun first second =>
    decide (first.method.rank ≤ second.method.rank)
  .object (Entries.sortedByName (inOrder.foldl (layOperation version) (Json.entriesOf base)))

/-- The components of the document.  The schemas stand last. -/
def renderComponents (version : Version) (base : Option Json) (store : Store) : Json :=
  let components := Json.entriesOf base
  let schemas := (store.render version).foldl
    (fun schemas entry => Entries.putNew schemas entry.1 entry.2)
    (Json.entriesOf (components.get? "schemas"))
  .object ((components.swapErase "schemas").put "schemas" (.object schemas))

def sortTags (tags : List Tag) : List Tag :=
  tags.mergeSort fun first second => decide (first.name ≤ second.name)

/-- The document: the version as it was asked for, what the base has of its
own, and the generated parts. -/
def render (version : Version) (versionText : String) (base : Entries Json)
    (assembly : Assembly) : Json :=
  let own := (base.swapErase "paths").swapErase "components"
  let entries := [("openapi", Json.text versionText)] ++ own ++
    [("tags", .list ((sortTags assembly.tags).map Tag.toJson)),
     ("servers", .list (assembly.servers.map Server.toJson)),
     ("paths", renderPaths version (base.get? "paths") assembly.documented),
     ("components", renderComponents version (base.get? "components") assembly.store)]
  Json.withoutReserved (.object entries)

end Document
end RouteDocs
