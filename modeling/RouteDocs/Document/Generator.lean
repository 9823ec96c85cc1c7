import RouteDocs.Document.Render

namespace RouteDocs

/-!
# Generations

A generator makes documents from lists of routes, one after the other.  It
remembers the warnings of the last generation and, where the settings say so,
the components of all earlier ones.  A generation that fails leaves behind
what it did until then; one for an unknown version does nothing at all.
-/

/-- A generator with what the last generation left behind. -/
structure Generator where
  settings : Settings := {}
  table : MapperTable := .builtin
  base : Entries Json := []
  store : Store := {}
  warnings : List Warning := []

namespace Generator

instance : Inhabited Generator := ⟨{}⟩

/-- The same generator with a base document.  The missing value stands for none. -/
def withBase (generator : Generator) (base : Json) : Except Fault Generator :=
  match base with
  | .object entries => .ok { generator with base := entries }
  | .null => .ok generator
  | found => .error (.baseNotObject found)

/-- The same generator with an empty store. -/
def resetComponents (generator : Generator) : Generator :=
  { generator with store := {} }

def startingStore (generator : Generator) : Store :=
  match generator.settings.componentLifetime with
  | .perCall => {}
  | .persistent => generator.store

/-- The warning about a version that the base names. -/
def baseWarnings (base : Entries Json) : List Warning :=
  match base.get? "openapi" with
  | none => []
  | some found => [.discardedBaseVersion (found.asText?.getD found.compact)]

/-- Read an optional list of the base. -/
def baseList {α : Type} (read : Node -> Reading α) (base : Entries Json) (name : String) :
    Except Fault (List α) :=
  match base.get? name with
  | none => .ok []
  | some value => (Node.ofJson value).asList read

def baseParts (base : Entries Json) : Except Fault (List Tag × List Server) := do
  let tags ← baseList Tag.read base "tags"
  let servers ← baseList Server.read base "servers"
  return (tags.foldl Tag.register [], servers.foldl Server.register [])

/-- What the base has besides the parts that are read from it. -/
def baseRest (base : Entries Json) : Entries Json :=
  ((base.swapErase "openapi").swapErase "tags").swapErase "servers"

def workshop (generator : Generator) : Workshop where
  table := generator.table
  settings := generator.settings

/-- What a generation has before its first route. -/
def beginning (generator : Generator) : Except Fault Assembly :=
  (baseParts generator.base).map fun (tags, servers) =>
    { tags := tags
      servers := servers
      store := generator.startingStore
      warnings := baseWarnings generator.base }

/-- What a generation assembles from routes, with the fault that ended it, if
one did.  There is nothing to begin with when the base cannot be read. -/
def assemble (generator : Generator) (routes : List Route) :
    Except Fault (Assembly × Option Fault) :=
  generator.beginning.map fun begun =>
    generator.workshop.claimRoutes (Route.inPathOrder routes) begun

/-- The generation for a supported version, with the generator afterwards. -/
def generateFor (generator : Generator) (version : Version) (versionText : String)
    (routes : List Route) : Except Fault Json × Generator :=
  match generator.assemble routes with
  | .error fault =>
    (.error fault,
      { generator with
        store := generator.startingStore
        warnings := baseWarnings generator.base })
  | .ok (assembly, fault?) =>
    let finished := { generator with store := assembly.store, warnings := assembly.warnings }
    match fault? with
    | some fault => (.error fault, finished)
    | none =>
      (.ok (Document.render version versionText (baseRest generator.base) assembly), finished)

/-- Generate the document of routes, with the generator afterwards. -/
def generate (generator : Generator) (versionText : String) (routes : List Route) :
    Except Fault Json × Generator :=
  match Version.ofText? versionText with
  | none => (.error (.unsupportedVersion versionText), generator)
  | some version => generator.generateFor version versionText routes

end Generator
end RouteDocs
