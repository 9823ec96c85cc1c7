import RouteDocs.Fault
import RouteDocs.Input.Node

namespace RouteDocs

/-!
# Reading records

A record is read from a map of its fields in any order or, where lists are
positional, from a list of them in the order of declaration.  Keys that name
no field are passed over.  A field that is left out keeps its starting value
unless it is required.  What goes wrong first, in the order of the input, is
what is reported.
-/

/-- The result of reading an input. -/
abbrev Reading (α : Type) : Type := Except Fault α

/-- Input of the wrong shape. -/
def misshapen {α : Type} : Reading α :=
  .error (.malformed none)

/-- A faulty value inside input of the right shape. -/
def carrying {α : Type} (result : Except Fault α) : Reading α :=
  result.mapError fun fault => .malformed (some fault)

namespace Node

def asText (node : Node) : Reading String :=
  match node.spelling? with
  | some spelling => .ok spelling
  | none => misshapen

/-- A text where the kind of the value decides, so that a bare number is none. -/
def asPlainText (node : Node) : Reading String :=
  match node.text? with
  | some characters => .ok characters
  | none => misshapen

def asBool (node : Node) : Reading Bool :=
  match node with
  | .scalar (.bool value) _ => .ok value
  | _ => misshapen

/-- A non-negative integer; a number with a point is none. -/
def asNatural (node : Node) : Reading Nat :=
  match node with
  | .scalar (.integer (.ofNat size)) _ => .ok size
  | _ => misshapen

def asValue (node : Node) : Reading Json :=
  match node.toJson? spelling? with
  | some value => .ok value
  | none => misshapen

/-- Any value in which every key means a text. -/
def asTextKeyedValue (node : Node) : Reading Json :=
  match node.toJson? text? with
  | some value => .ok value
  | none => misshapen

/-- A list, item by item.  A value that is left blank is the empty list. -/
def asList {α : Type} (read : Node -> Reading α) (node : Node) : Reading (List α) :=
  match node with
  | .list items _ => items.mapM read
  | other => if other.isBlank then .ok [] else misshapen

def asOptional {α : Type} (read : Node -> Reading α) (node : Node) : Reading (Option α) :=
  if node.isNull then .ok none else (read node).map some

/-- A map with free keys; a repeated key keeps its first place and takes its
last value.  A value that is left blank is the empty map. -/
def asEntries {α : Type} (read : Node -> Reading α) (node : Node) : Reading (Entries α) :=
  match node with
  | .map entries => do
    let pairs ← entries.mapM fun entry => do
      let name ← asText entry.1
      let value ← read entry.2
      return (name, value)
    return Entries.ofPairs pairs
  | other => if other.isBlank then .ok [] else misshapen

/-- One of several names.  In JSON a name may also stand as the only key of an
object, over the missing value; that value spells nothing, unlike one in YAML. -/
def asChoice {α : Type} (choice? : String -> Option α) (node : Node) : Reading α := do
  let name ← match node with
    | .map [(key, .scalar .null none)] => asText key
    | single => asText single
  match choice? name with
  | some value => return value
  | none => misshapen

end Node

/-- One field of a record under construction. -/
structure RecordField (σ : Type) where
  name : String
  required : Bool := false
  store : Node -> σ -> Reading σ

namespace RecordField

variable {σ α : Type}

/-- A field whose value is read on its own and then put into the record. -/
def of (name : String) (read : Node -> Reading α) (put : α -> σ -> σ) : RecordField σ where
  name := name
  store := fun node record => (read node).map fun value => put value record

/-- The same field, but it must be given. -/
def mandatory (field : RecordField σ) : RecordField σ :=
  { field with required := true }

/-- The field that a key names by its spelling, if there is one. -/
def byName (fields : List (RecordField σ)) (key : Node) : Reading (Option (RecordField σ)) :=
  (Node.asText key).map fun name => fields.find? fun field => field.name == name

/-- The field that a key selects by what it means: a text by name, a
non-negative integer without a minus sign by place. -/
def byMeaning (fields : List (RecordField σ)) (key : Node) : Reading (Option (RecordField σ)) :=
  match key with
  | .scalar (.text name) _ => .ok (fields.find? fun field => field.name == name)
  | .scalar (.integer (.ofNat place)) (some spelling) =>
    if spelling.toList.head? = some '-' then misshapen else .ok fields[place]?
  | _ => misshapen

/-- Read the entries of a map in order, each with the field that `select` finds
for its key.  A second value for a field is refused before it is read. -/
def readEntries (select : Node -> Reading (Option (RecordField σ))) (seen : List String)
    (record : σ) (entries : List (Node × Node)) : Reading (σ × List String) :=
  match entries with
  | [] => .ok (record, seen)
  | (key, value) :: rest =>
    match select key with
    | .error fault => .error fault
    | .ok none => readEntries select seen record rest
    | .ok (some field) =>
      if seen.contains field.name then misshapen
      else
        match field.store value record with
        | .ok next => readEntries select (field.name :: seen) next rest
        | .error fault => .error fault

/-- Read listed values, field by field.  Only fields that are not required may
be missing at the end, and nothing may be left over. -/
def readItems (fields : List (RecordField σ)) (record : σ) (items : List Node) : Reading σ :=
  match fields, items with
  | [], [] => .ok record
  | [], _ :: _ => misshapen
  | field :: others, [] =>
    if (field :: others).any RecordField.required then misshapen else .ok record
  | field :: others, item :: rest =>
    match field.store item record with
    | .ok next => readItems others next rest
    | .error fault => .error fault

/-- Read a record from the entries of a map.  No required field may be missing. -/
def readMap (fields : List (RecordField σ)) (select : Node -> Reading (Option (RecordField σ)))
    (start : σ) (entries : List (Node × Node)) : Reading σ :=
  match readEntries select [] start entries with
  | .ok (record, seen) =>
    if fields.all fun field => !field.required || seen.contains field.name then .ok record
    else misshapen
  | .error fault => .error fault

/-- Read a record from a map or from a positional list of its fields.  A value
that is left blank is the empty map. -/
def readRecord (fields : List (RecordField σ)) (start : σ) (node : Node) : Reading σ :=
  match node with
  | .map entries => readMap fields (byName fields) start entries
  | .list items true => readItems fields start items
  | other => if other.isBlank then readMap fields (byName fields) start [] else misshapen

end RecordField
end RouteDocs
