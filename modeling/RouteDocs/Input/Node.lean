import RouteDocs.Json.Basic

namespace RouteDocs

/-!
# Input values

Settings and routes arrive as JSON or as YAML.  An input node is a value of
either: a scalar with its meaning and, where a text may be read from it, its
spelling; a list; or a map whose keys may still repeat.  A quoted scalar and
every text spell themselves.  A bare YAML scalar keeps its spelling beside its
meaning, so a field that asks for a text accepts `5` there; a JSON number
spells nothing.

The keys of a YAML map are nodes like any others.  Only a scalar can name an
entry, by its spelling; whatever else stands as a key is harmless as long as
nobody asks for its name.
-/

/-- An input value. -/
inductive Node where
  /-- A scalar that means a value. -/
  | scalar (meaning : Json) (spelling : Option String)
  /-- An infinite or undefined number.  Where any value may stand it counts as
  the missing one. -/
  | unbounded (spelling : String)
  /-- Input without a meaning: an integer too large for a value, which can
  still be read as a text, or a part nested too deep, which cannot be read. -/
  | meaningless (spelling : Option String)
  /-- A list; `positional` says that it may give the fields of a record in
  the order of declaration. -/
  | list (items : List Node) (positional : Bool)
  /-- A map, entry by entry. -/
  | map (entries : List (Node × Node))

namespace Node

instance : Inhabited Node := ⟨.scalar .null none⟩

def ofText (characters : String) : Node := .scalar (.text characters) (some characters)

mutual

/-- A JSON value as input.  A JSON list may stand for a record. -/
def ofJson (value : Json) : Node :=
  match value with
  | .list items => .list (ofItems items) true
  | .object entries => .map (ofEntries entries)
  | .text characters => ofText characters
  | .null => .scalar .null none
  | .bool flag => .scalar (.bool flag) none
  | .integer number => .scalar (.integer number) none
  | .real number => .scalar (.real number) none

def ofItems (items : List Json) : List Node :=
  match items with
  | [] => []
  | item :: rest => ofJson item :: ofItems rest

def ofEntries (entries : List (String × Json)) : List (Node × Node) :=
  match entries with
  | [] => []
  | (key, value) :: rest => (ofText key, ofJson value) :: ofEntries rest

end

/-- The spelling of a scalar, which is also the name that it gives as a key. -/
def spelling? (node : Node) : Option String :=
  match node with
  | .scalar _ spelling => spelling
  | .unbounded spelling => some spelling
  | .meaningless spelling => spelling
  | _ => none

def text? (node : Node) : Option String :=
  match node with
  | .scalar (.text characters) _ => some characters
  | _ => none

mutual

/-- The JSON value an input stands for, if it has one.  A repeated key keeps
its first place and takes its last value.  The names of keys are given by
`keyName?`: their spellings or the texts that they mean. -/
def toJson? (keyName? : Node -> Option String) (node : Node) : Option Json :=
  match node with
  | .scalar meaning _ => some meaning
  | .unbounded _ => some .null
  | .meaningless _ => none
  | .list items _ => (toItems? keyName? items).map .list
  | .map entries => (toEntries? keyName? entries).map fun pairs => .object (Entries.ofPairs pairs)

def toItems? (keyName? : Node -> Option String) (items : List Node) : Option (List Json) :=
  match items with
  | [] => some []
  | item :: rest =>
    match toJson? keyName? item, toItems? keyName? rest with
    | some value, some values => some (value :: values)
    | _, _ => none

def toEntries? (keyName? : Node -> Option String) (entries : List (Node × Node)) :
    Option (List (String × Json)) :=
  match entries with
  | [] => some []
  | (key, item) :: rest =>
    match keyName? key, toJson? keyName? item, toEntries? keyName? rest with
    | some name, some value, some values => some ((name, value) :: values)
    | _, _, _ => none

end

mutual

/-- Whether every part of the input has a meaning, the keys included. -/
def isReadable (node : Node) : Bool :=
  match node with
  | .scalar _ _ => true
  | .unbounded _ => true
  | .meaningless _ => false
  | .list items _ => allReadable items
  | .map entries => allEntriesReadable entries

def allReadable (items : List Node) : Bool :=
  match items with
  | [] => true
  | item :: rest => isReadable item && allReadable rest

def allEntriesReadable (entries : List (Node × Node)) : Bool :=
  match entries with
  | [] => true
  | (key, item) :: rest => isReadable key && isReadable item && allEntriesReadable rest

end

mutual

/-- The input with every list and map that is nested deeper than `depth`
replaced by one that cannot be read. -/
def cutBelow (depth : Nat) (node : Node) : Node :=
  match node, depth with
  | .list _ _, 0 => .meaningless none
  | .map _, 0 => .meaningless none
  | .list items positional, depth + 1 => .list (cutItemsBelow depth items) positional
  | .map entries, depth + 1 => .map (cutEntriesBelow depth entries)
  | other, _ => other

def cutItemsBelow (depth : Nat) (items : List Node) : List Node :=
  match items with
  | [] => []
  | item :: rest => cutBelow depth item :: cutItemsBelow depth rest

def cutEntriesBelow (depth : Nat) (entries : List (Node × Node)) : List (Node × Node) :=
  match entries with
  | [] => []
  | (key, item) :: rest =>
    (cutBelow depth key, cutBelow depth item) :: cutEntriesBelow depth rest

end

/-- Whether the input is the missing value. -/
def isNull (node : Node) : Bool :=
  match node with
  | .scalar .null _ => true
  | _ => false

/-- Whether the input is left blank: a missing value that is spelled by nothing. -/
def isBlank (node : Node) : Bool :=
  match node with
  | .scalar .null (some spelling) => spelling.isEmpty
  | _ => false

end Node
end RouteDocs
