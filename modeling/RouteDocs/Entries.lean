namespace RouteDocs

/-!
# Named values in order of first arrival

Fields, properties, components and JSON objects all keep the order in which
their names first arrived, because that order is visible in every document.
An `Entries α` is the plain list of its name and value pairs.  The operations
below never repeat a name that was not repeated before, so a table built from
the empty one by `put` has distinct names; reading always takes the first
entry of a name.
-/

/-- A table of named values, in the order in which the names arrived. -/
abbrev Entries (α : Type) : Type := List (String × α)

namespace Entries

variable {α β : Type}

def get? (entries : Entries α) (name : String) : Option α :=
  match entries with
  | [] => none
  | (key, value) :: rest => if key = name then some value else get? rest name

def has (entries : Entries α) (name : String) : Bool :=
  (entries.get? name).isSome

def names (entries : Entries α) : List String :=
  entries.map Prod.fst

def values (entries : Entries α) : List α :=
  entries.map Prod.snd

/-- Store a value.  A present name keeps its place and takes the new value;
a new name goes to the end. -/
def put (entries : Entries α) (name : String) (value : α) : Entries α :=
  match entries with
  | [] => [(name, value)]
  | (key, old) :: rest =>
    if key = name then (key, value) :: rest else (key, old) :: put rest name value

/-- Store a value only when the name is still free. -/
def putNew (entries : Entries α) (name : String) (value : α) : Entries α :=
  if entries.has name then entries else entries.put name value

/-- Store every entry of `higher` over `lower`, in the order of `higher`. -/
def overlay (lower higher : Entries α) : Entries α :=
  higher.foldl (fun entries entry => entries.put entry.1 entry.2) lower

/-- Replay a list of pairs: a repeated name keeps its first place and takes
its last value. -/
def ofPairs (pairs : List (String × α)) : Entries α :=
  overlay [] pairs

/-- Take a name out.  The last entry moves into the place that becomes free,
so every other entry keeps its index. -/
def swapErase (entries : Entries α) (name : String) : Entries α :=
  match entries.getLast? with
  | none => entries
  | some last =>
    if entries.has name = false then entries
    else if last.1 = name then entries.dropLast
    else entries.dropLast.map fun entry => if entry.1 = name then last else entry

def mapValues (entries : Entries α) (function : α -> β) : Entries β :=
  entries.map fun entry => (entry.1, function entry.2)

@[simp] theorem get?_nil (name : String) : get? ([] : Entries α) name = none := rfl

@[simp] theorem names_nil : names ([] : Entries α) = [] := rfl

@[simp] theorem names_cons (entry : String × α) (rest : Entries α) :
    names (entry :: rest) = entry.1 :: names rest := rfl

@[simp] theorem get?_put_self (entries : Entries α) (name : String) (value : α) :
    (entries.put name value).get? name = some value := by
  induction entries with
  | nil => simp [put, get?]
  | cons entry rest inductionHypothesis =>
    by_cases same : entry.1 = name
    · simp [put, get?, same]
    · simp [put, get?, same, inductionHypothesis]

theorem get?_put_of_ne (entries : Entries α) {name other : String} (value : α)
    (different : other ≠ name) : (entries.put name value).get? other = entries.get? other := by
  induction entries with
  | nil => simp [put, get?, Ne.symm different]
  | cons entry rest inductionHypothesis =>
    by_cases same : entry.1 = name
    · simp [put, get?, same, Ne.symm different]
    · by_cases found : entry.1 = other
      · simp [put, get?, found, different]
      · simp [put, get?, same, found, inductionHypothesis]

theorem mem_of_get?_eq_some {entries : Entries α} {name : String} {value : α}
    (found : entries.get? name = some value) : (name, value) ∈ entries := by
  induction entries with
  | nil => simp [get?] at found
  | cons entry rest inductionHypothesis =>
    unfold get? at found
    split at found
    · next same =>
      cases found
      rw [← same]
      exact List.mem_cons_self
    · exact List.mem_cons_of_mem entry (inductionHypothesis found)

end Entries
end RouteDocs
