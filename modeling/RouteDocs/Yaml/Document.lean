import RouteDocs.Yaml.Reader
import RouteDocs.Yaml.Scalar

namespace RouteDocs
namespace Yaml

/-!
# Documents

A document is one node: a scalar, a block of items or entries, or a list or map
in brackets.  Whatever may be left out is blank.  Under a key the items of a
block may stand in the column of the key; such a block has no tokens of its own
for its beginning and its end.  No block begins inside brackets, so nothing
there has to check for one.

Every function takes a bound on how deep it may go.  A call uses one of it up,
and each token allows for a fixed number of calls, so the bound given at the
top is never reached.
-/

/-- A node at the beginning of tokens with the tokens behind it. -/
abbrev Parsed (α : Type) : Type := Option (α × List Token)

/-- A node, or a blank one where a token stands before which it may be left out. -/
def orBlank (stops : List Token) (read : List Token -> Parsed Node) (tokens : List Token) :
    Parsed Node :=
  match tokens with
  | [] => none
  | token :: rest =>
    if stops.contains token then some (blank, token :: rest) else read (token :: rest)

/-- The node behind the mark of a value, or a blank one where there is no such mark. -/
def valueNode (stops : List Token) (read : List Token -> Parsed Node) (tokens : List Token) :
    Parsed Node :=
  match tokens with
  | .valueMark :: rest => orBlank stops read rest
  | tokens => some (blank, tokens)

/-- The tokens before which an item of a block is left out. -/
def itemStops : List Token := [.dash, .endBlock]

/-- The tokens before which a key or a value of a block is left out. -/
def entryStops : List Token := [.keyMark, .valueMark, .endBlock]

mutual

/-- A node.  `aligned` says that its items may begin without a block of their own. -/
def node (bound : Nat) (aligned : Bool) (tokens : List Token) : Parsed Node :=
  match bound, tokens with
  | _ + 1, .bare text :: rest => some (bareNode text, rest)
  | _ + 1, .quoted text :: rest => some (quotedNode text, rest)
  | bound + 1, .openList :: rest =>
    (flowItems bound true rest).map fun (items, rest) => (.list items false, rest)
  | bound + 1, .openMap :: rest =>
    (flowEntries bound true rest).map fun (entries, rest) => (.map entries, rest)
  | bound + 1, .beginItems :: rest =>
    (blockItems bound rest).map fun (items, rest) => (.list items false, rest)
  | bound + 1, .beginEntries :: rest =>
    (blockEntries bound rest).map fun (entries, rest) => (.map entries, rest)
  | bound + 1, .dash :: rest =>
    if aligned then
      (alignedItems bound (.dash :: rest)).map fun (items, rest) => (.list items false, rest)
    else none
  | _, _ => none

def blockItems (bound : Nat) (tokens : List Token) : Parsed (List Node) :=
  match bound, tokens with
  | bound + 1, .dash :: rest =>
    match orBlank itemStops (node bound false) rest with
    | some (item, rest) => (blockItems bound rest).map fun (items, rest) => (item :: items, rest)
    | none => none
  | _ + 1, .endBlock :: rest => some ([], rest)
  | _, _ => none

/-- The items in the column of their key, as long as there are any. -/
def alignedItems (bound : Nat) (tokens : List Token) : Parsed (List Node) :=
  match bound, tokens with
  | bound + 1, .dash :: rest =>
    match orBlank (.dash :: entryStops) (node bound false) rest with
    | some (item, rest) => (alignedItems bound rest).map fun (items, rest) => (item :: items, rest)
    | none => none
  | _ + 1, tokens => some ([], tokens)
  | _, _ => none

def blockEntries (bound : Nat) (tokens : List Token) : Parsed (List (Node × Node)) :=
  match bound, tokens with
  | bound + 1, .keyMark :: rest =>
    match orBlank entryStops (node bound true) rest with
    | none => none
    | some (key, rest) =>
      match valueNode entryStops (node bound true) rest with
      | none => none
      | some (value, rest) =>
        (blockEntries bound rest).map fun (entries, rest) => ((key, value) :: entries, rest)
  | _ + 1, .endBlock :: rest => some ([], rest)
  | _, _ => none

/-- The items up to the closing bracket.  `fresh` says that an item may follow
without a comma in front.  A key among the items makes a map of one entry.  A
key that is left out takes the token that follows its mark with it. -/
def flowItems (bound : Nat) (fresh : Bool) (tokens : List Token) : Parsed (List Node) :=
  match bound, fresh, tokens with
  | _ + 1, _, .closeList :: rest => some ([], rest)
  | bound + 1, false, .comma :: rest => flowItems bound true rest
  | bound + 1, true, .keyMark :: token :: rest =>
    let key? := if [.valueMark, .comma, .closeList].contains token then some (blank, rest)
      else node bound false (token :: rest)
    match key? with
    | none => none
    | some (key, rest) =>
      match valueNode [.comma, .closeList] (node bound false) rest with
      | none => none
      | some (value, rest) =>
        (flowItems bound false rest).map fun (items, rest) => (.map [(key, value)] :: items, rest)
  | bound + 1, true, tokens =>
    match node bound false tokens with
    | some (item, rest) =>
      (flowItems bound false rest).map fun (items, rest) => (item :: items, rest)
    | none => none
  | _, _, _ => none

/-- The entries up to the closing brace.  A key may stand alone. -/
def flowEntries (bound : Nat) (fresh : Bool) (tokens : List Token) : Parsed (List (Node × Node)) :=
  match bound, fresh, tokens with
  | _ + 1, _, .closeMap :: rest => some ([], rest)
  | bound + 1, false, .comma :: rest => flowEntries bound true rest
  | bound + 1, true, .keyMark :: rest =>
    match orBlank [.valueMark, .comma, .closeMap] (node bound false) rest with
    | none => none
    | some (key, rest) =>
      match valueNode [.comma, .closeMap] (node bound false) rest with
      | none => none
      | some (value, rest) =>
        (flowEntries bound false rest).map fun (entries, rest) => ((key, value) :: entries, rest)
  | bound + 1, true, tokens =>
    match node bound false tokens with
    | some (key, rest) =>
      (flowEntries bound false rest).map fun (entries, rest) => ((key, blank) :: entries, rest)
    | none => none
  | _, _, _ => none

end

/-- The greatest depth to which lists and maps can be read. -/
def depthLimit : Nat := 128

/-- The node that stands at the beginning of a document.  Behind a mark of the
beginning it may be left out. -/
def content (marked : Bool) (tokens : List Token) : Parsed Node :=
  let bound := 2 * (tokens.length + 1)
  match marked, tokens with
  | true, [] => some (blank, [])
  | true, tokens => orBlank [.beginDocument, .endDocument] (node bound false) tokens
  | false, tokens => node bound false tokens

/-- The node of the only document that the given tokens make.  A text without
tokens is a blank document. -/
def ofTokens? (tokens : List Token) : Option Node :=
  let parsed :=
    match tokens with
    | [] => some (blank, [])
    | .beginDocument :: rest => content true rest
    | tokens => content false tokens
  match parsed with
  | some (root, rest) =>
    if rest.all fun token => token == .endDocument then some (root.cutBelow depthLimit) else none
  | none => none

def read? (text : String) : Option Node :=
  (tokens? text).bind ofTokens?

end Yaml
end RouteDocs
