import RouteDocs.Route.Method

namespace RouteDocs

/-!
# Warnings

What a generation notices and passes over.
-/

/-- Something that was noticed and passed over. -/
inductive Warning where
  /-- A route asks for a method of a path that an earlier route has. -/
  | duplicateOperation (path : String) (method : Method) (claimedBy : String)
  /-- A component was stored under a name that was taken. -/
  | componentCollision (name : String)
  /-- The base document names a version of its own. -/
  | discardedBaseVersion (version : String)
deriving DecidableEq

def Warning.message (warning : Warning) : String :=
  match warning with
  | .duplicateOperation path method claimedBy =>
    method.name ++ " " ++ path ++ " is already claimed by '" ++ claimedBy ++
      "', later route dropped"
  | .componentCollision name =>
    "Component '" ++ name ++ "' registered twice, previous schema overwritten"
  | .discardedBaseVersion version => "Base document version '" ++ version ++ "' discarded"

end RouteDocs
