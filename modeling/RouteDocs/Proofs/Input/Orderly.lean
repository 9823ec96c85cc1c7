import RouteDocs.Input.Record
import RouteDocs.Proofs.Except
import RouteDocs.Proofs.Json.Orderly

namespace RouteDocs

/-!
# Orderly input

Input is orderly when its scalars are.  Keys may repeat in it: the value that an
input stands for has each key once, so it is orderly at every depth.

What all values have that are read from orderly input (`Node.Yields`) goes over
to optional values and lists of them.  What every field of a record keeps
(`RecordField.Keeps`), whatever is stored in it, the record has that is read.
-/

/-- Every scalar inside the input is an orderly value. -/
inductive Node.Orderly : Node → Prop where
  | scalar {meaning : Json} (own : meaning.Everywhere Json.IsOrderly) (spelling : Option String) :
      Orderly (.scalar meaning spelling)
  | unbounded (spelling : String) : Orderly (.unbounded spelling)
  | meaningless (spelling : Option String) : Orderly (.meaningless spelling)
  | list {items : List Node} (each : ∀ item ∈ items, Orderly item) (positional : Bool) :
      Orderly (.list items positional)
  | map {entries : List (Node × Node)} (each : ∀ entry ∈ entries, Orderly entry.2) :
      Orderly (.map entries)

namespace Node

variable {keyName? : Node → Option String}

theorem toJson?_of_mem_toItems? {items : List Node} {values : List Json}
    (given : toItems? keyName? items = some values) :
    ∀ value ∈ values, ∃ item ∈ items, item.toJson? keyName? = some value := by
  induction items generalizing values with
  | nil =>
    cases given
    exact List.forall_mem_nil _
  | cons item rest inductionHypothesis =>
    rw [toItems?] at given
    split at given
    · next first others found foundOthers =>
      cases given
      refine List.forall_mem_cons.mpr ⟨⟨item, List.mem_cons_self, found⟩, fun value member => ?_⟩
      rcases inductionHypothesis foundOthers value member with ⟨source, listed, same⟩
      exact ⟨source, List.mem_cons_of_mem _ listed, same⟩
    · cases given

theorem toJson?_of_mem_toEntries? {entries : List (Node × Node)} {pairs : List (String × Json)}
    (given : toEntries? keyName? entries = some pairs) :
    ∀ pair ∈ pairs, ∃ entry ∈ entries, entry.2.toJson? keyName? = some pair.2 := by
  induction entries generalizing pairs with
  | nil =>
    cases given
    exact List.forall_mem_nil _
  | cons entry rest inductionHypothesis =>
    rcases entry with ⟨key, item⟩
    rw [toEntries?] at given
    split at given
    · next name value others named found foundOthers =>
      cases given
      refine List.forall_mem_cons.mpr
        ⟨⟨(key, item), List.mem_cons_self, found⟩, fun pair member => ?_⟩
      rcases inductionHypothesis foundOthers pair member with ⟨source, listed, same⟩
      exact ⟨source, List.mem_cons_of_mem _ listed, same⟩
    · cases given

/-- The value of orderly input is orderly at every depth. -/
theorem Orderly.toJson? {node : Node} (orderly : node.Orderly) {value : Json}
    (given : node.toJson? keyName? = some value) : value.Everywhere Json.IsOrderly := by
  induction orderly generalizing value with
  | scalar own spelling =>
    cases given
    exact own
  | unbounded spelling =>
    cases given
    exact .intro trivial (List.forall_mem_nil _)
  | meaningless spelling => cases given
  | list each positional inductionHypothesis =>
    rcases Option.map_eq_some_iff.mp given with ⟨values, found, rfl⟩
    refine .intro trivial fun part member => ?_
    rcases toJson?_of_mem_toItems? found part member with ⟨item, listed, same⟩
    exact inductionHypothesis item listed same
  | map each inductionHypothesis =>
    rcases Option.map_eq_some_iff.mp given with ⟨pairs, found, rfl⟩
    refine .intro (Entries.nodup_names_ofPairs pairs) fun part member => ?_
    rcases List.mem_map.mp member with ⟨pair, kept, rfl⟩
    rcases Entries.mem_overlay kept with listed | impossible
    · rcases toJson?_of_mem_toEntries? found pair listed with ⟨entry, stored, same⟩
      exact inductionHypothesis entry stored same
    · cases impossible

theorem mem_ofItems {items : List Json} {node : Node} (member : node ∈ ofItems items) :
    ∃ item ∈ items, ofJson item = node := by
  induction items with
  | nil => cases member
  | cons item rest inductionHypothesis =>
    rw [ofItems] at member
    rcases List.mem_cons.mp member with rfl | later
    · exact ⟨item, List.mem_cons_self, rfl⟩
    · rcases inductionHypothesis later with ⟨source, listed, same⟩
      exact ⟨source, List.mem_cons_of_mem _ listed, same⟩

theorem mem_ofEntries {entries : List (String × Json)} {entry : Node × Node}
    (member : entry ∈ ofEntries entries) : ∃ source ∈ entries, ofJson source.2 = entry.2 := by
  induction entries with
  | nil => cases member
  | cons first rest inductionHypothesis =>
    rcases first with ⟨key, value⟩
    rw [ofEntries] at member
    rcases List.mem_cons.mp member with rfl | later
    · exact ⟨(key, value), List.mem_cons_self, rfl⟩
    · rcases inductionHypothesis later with ⟨source, listed, same⟩
      exact ⟨source, List.mem_cons_of_mem _ listed, same⟩

/-- An orderly value is orderly input. -/
theorem orderly_ofJson {value : Json} (orderly : value.Everywhere Json.IsOrderly) :
    (ofJson value).Orderly := by
  induction orderly with
  | @intro value own inside inductionHypothesis =>
    cases value with
    | list items =>
      rw [ofJson]
      refine .list (fun node member => ?_) true
      rcases mem_ofItems member with ⟨item, listed, rfl⟩
      exact inductionHypothesis item listed
    | object entries =>
      rw [ofJson]
      refine .map fun entry member => ?_
      rcases mem_ofEntries member with ⟨source, listed, same⟩
      exact same ▸ inductionHypothesis source.2 (List.mem_map_of_mem listed)
    | _ =>
      rw [ofJson]
      exact .scalar (.intro own inside) _

/-! ## What is read -/

variable {α β : Type}

/-- What is read from orderly input meets the condition. -/
def Yields (read : Node → Reading α) (condition : α → Prop) : Prop :=
  ∀ node value, node.Orderly → read node = .ok value → condition value

theorem asValue_yields : Yields asValue (Json.Everywhere Json.IsOrderly) := by
  intro node value orderly read
  unfold asValue at read
  split at read
  · next given =>
    cases read
    exact orderly.toJson? given
  · cases read

variable {read : Node → Reading α} {condition : α → Prop}

theorem Yields.asOptional (yields : Yields read condition) :
    Yields (asOptional read) fun value? => ∀ value ∈ value?, condition value := by
  intro node value? orderly succeeded value present
  unfold Node.asOptional at succeeded
  split at succeeded
  · cases succeeded
    cases present
  · rcases Except.eq_ok_of_map_eq_ok succeeded with ⟨found, same, rfl⟩
    cases present
    exact yields node value orderly same

theorem Yields.asList (yields : Yields read condition) :
    Yields (asList read) fun values => ∀ value ∈ values, condition value := by
  intro node values orderly succeeded
  unfold Node.asList at succeeded
  split at succeeded
  · cases orderly with
    | list each positional =>
      intro value member
      rcases Except.eq_ok_of_mem_mapM succeeded value member with ⟨item, listed, same⟩
      exact yields item value (each item listed) same
  · split at succeeded
    · cases succeeded
      exact List.forall_mem_nil _
    · cases succeeded

/-- A map with free keys repeats no name, whatever its values are. -/
theorem asEntries_yields (read : Node → Reading α) :
    Yields (asEntries read) fun entries => entries.names.Nodup := by
  intro node entries _ succeeded
  unfold Node.asEntries at succeeded
  split at succeeded
  · rcases Except.eq_ok_of_bind_eq_ok succeeded with ⟨pairs, -, same⟩
    cases same
    exact Entries.nodup_names_ofPairs pairs
  · split at succeeded
    · cases succeeded
      exact List.nodup_nil
    · cases succeeded

end Node

namespace RecordField

variable {σ α : Type}

/-- The field keeps the condition on the record, whatever orderly input is stored in it. -/
def Keeps (condition : σ → Prop) (field : RecordField σ) : Prop :=
  ∀ node record next, node.Orderly → condition record → field.store node record = .ok next →
    condition next

variable {condition : σ → Prop} {fields : List (RecordField σ)}

theorem Keeps.of {read : Node → Reading α} {own : α → Prop} (yields : Node.Yields read own)
    (name : String) {put : α → σ → σ}
    (keeps : ∀ value record, own value → condition record → condition (put value record)) :
    Keeps condition (.of name read put) := by
  intro node record next orderly holds stored
  rcases Except.eq_ok_of_map_eq_ok stored with ⟨value, found, rfl⟩
  exact keeps value record (yields node value orderly found) holds

/-- A field that has nothing to do with the condition. -/
theorem Keeps.beside (name : String) (read : Node → Reading α) {put : α → σ → σ}
    (keeps : ∀ value record, condition record → condition (put value record)) :
    Keeps condition (.of name read put) :=
  .of (fun _ _ _ _ => trivial : Node.Yields read fun _ => True) name
    fun value record _ => keeps value record

theorem readEntries_keeps (keeps : ∀ field ∈ fields, field.Keeps condition)
    {entries : List (Node × Node)} (orderly : ∀ entry ∈ entries, entry.2.Orderly)
    {seen : List String} {record : σ} (holds : condition record) {read : σ × List String}
    (succeeded : readEntries (byName fields) seen record entries = .ok read) :
    condition read.1 := by
  induction entries generalizing seen record with
  | nil =>
    cases succeeded
    exact holds
  | cons entry rest inductionHypothesis =>
    rcases entry with ⟨key, value⟩
    rcases List.forall_mem_cons.mp orderly with ⟨first, others⟩
    unfold readEntries at succeeded
    split at succeeded
    · cases succeeded
    · exact inductionHypothesis others holds succeeded
    · next field selected =>
      have listed : field ∈ fields := by
        rcases Except.eq_ok_of_map_eq_ok selected with ⟨name, -, found⟩
        exact List.mem_of_find?_eq_some found
      split at succeeded
      · cases succeeded
      · split at succeeded
        · next after stored =>
          exact inductionHypothesis others (keeps field listed value record after first holds stored)
            succeeded
        · cases succeeded

theorem readItems_keeps (keeps : ∀ field ∈ fields, field.Keeps condition) {items : List Node}
    (orderly : ∀ item ∈ items, item.Orderly) {record read : σ} (holds : condition record)
    (succeeded : readItems fields record items = .ok read) : condition read := by
  induction fields generalizing items record with
  | nil =>
    cases items with
    | nil =>
      cases succeeded
      exact holds
    | cons item rest => cases succeeded
  | cons field others inductionHypothesis =>
    rcases List.forall_mem_cons.mp keeps with ⟨first, later⟩
    cases items with
    | nil =>
      unfold readItems at succeeded
      split at succeeded
      · cases succeeded
      · cases succeeded
        exact holds
    | cons item rest =>
      rcases List.forall_mem_cons.mp orderly with ⟨own, further⟩
      unfold readItems at succeeded
      split at succeeded
      · next after stored =>
        exact inductionHypothesis later further (first item record after own holds stored) succeeded
      · cases succeeded

theorem readMap_keeps (keeps : ∀ field ∈ fields, field.Keeps condition)
    {entries : List (Node × Node)} (orderly : ∀ entry ∈ entries, entry.2.Orderly) {start read : σ}
    (holds : condition start) (succeeded : readMap fields (byName fields) start entries = .ok read) :
    condition read := by
  unfold readMap at succeeded
  split at succeeded
  · next record seen ran =>
    split at succeeded
    · cases succeeded
      exact readEntries_keeps keeps orderly holds ran
    · cases succeeded
  · cases succeeded

/-- A record has what its fields keep, if it has it at the start. -/
theorem readRecord_yields (keeps : ∀ field ∈ fields, field.Keeps condition) {start : σ}
    (holds : condition start) : Node.Yields (readRecord fields start) condition := by
  intro node record orderly succeeded
  unfold readRecord at succeeded
  split at succeeded
  · cases orderly with
    | map each => exact readMap_keeps keeps each holds succeeded
  · cases orderly with
    | list each positional => exact readItems_keeps keeps each holds succeeded
  · split at succeeded
    · exact readMap_keeps keeps (List.forall_mem_nil _) holds succeeded
    · cases succeeded

end RecordField
end RouteDocs
