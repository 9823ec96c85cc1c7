import RouteDocs.Proofs.Except
import RouteDocs.Route.Read

namespace RouteDocs

/-!
# Readers that only know shapes

Where no rule and no method is read, a value can be refused for its shape and
for nothing else.  Tags and servers are made of texts alone, so every failure
to read a list of them is the same: input of the wrong shape, without a cause
of its own.
-/

/-- Every failure of a reader is input of the wrong shape. -/
def Node.RefusesByShape {α : Type} (read : Node → Reading α) : Prop :=
  ∀ node fault, read node = .error fault → fault = .malformed none

namespace Node

variable {α : Type}

theorem refusesByShape_asText : RefusesByShape asText := by
  intro node fault refused
  unfold asText at refused
  split at refused
  · cases refused
  · cases refused
    rfl

theorem RefusesByShape.asOptional {read : Node → Reading α} (byShape : RefusesByShape read) :
    RefusesByShape (asOptional read) := by
  intro node fault refused
  unfold Node.asOptional at refused
  split at refused
  · cases refused
  · exact byShape node fault (Except.eq_error_of_map_eq_error refused)

theorem RefusesByShape.mapM {read : Node → Reading α} (byShape : RefusesByShape read)
    {items : List Node} {fault : Fault} (refused : items.mapM read = .error fault) :
    fault = .malformed none := by
  induction items with
  | nil => cases refused
  | cons item rest inductionHypothesis =>
    rw [List.mapM_cons] at refused
    cases first : read item with
    | error cause =>
      rw [first] at refused
      cases refused
      exact byShape item _ first
    | ok value =>
      rw [first] at refused
      cases others : rest.mapM read with
      | error cause =>
        simp only [others, bind, Except.bind] at refused
        cases refused
        exact inductionHypothesis others
      | ok values =>
        simp only [others, bind, Except.bind] at refused
        cases refused

theorem RefusesByShape.asList {read : Node → Reading α} (byShape : RefusesByShape read) :
    RefusesByShape (asList read) := by
  intro node fault refused
  unfold Node.asList at refused
  split at refused
  · exact byShape.mapM refused
  · split at refused
    · cases refused
    · cases refused
      rfl

end Node

namespace RecordField

variable {σ α : Type}

/-- A field whose values are refused for their shape only. -/
def RefusesByShape (field : RecordField σ) : Prop :=
  ∀ node record fault, field.store node record = .error fault → fault = .malformed none

theorem RefusesByShape.of {read : Node → Reading α} (byShape : Node.RefusesByShape read)
    (name : String) (put : α → σ → σ) : RefusesByShape (.of name read put) := by
  intro node record fault refused
  exact byShape node fault (Except.eq_error_of_map_eq_error refused)

variable {fields : List (RecordField σ)}

theorem readEntries_refusesByShape (byShape : ∀ field ∈ fields, field.RefusesByShape)
    {entries : List (Node × Node)} {seen : List String} {record : σ} {fault : Fault}
    (refused : readEntries (byName fields) seen record entries = .error fault) :
    fault = .malformed none := by
  induction entries generalizing seen record with
  | nil => cases refused
  | cons entry rest inductionHypothesis =>
    rcases entry with ⟨key, value⟩
    unfold readEntries at refused
    split at refused
    · next cause unnamed =>
      cases refused
      exact Node.refusesByShape_asText key _ (Except.eq_error_of_map_eq_error unnamed)
    · exact inductionHypothesis refused
    · next field selected =>
      have listed : field ∈ fields := by
        obtain ⟨name, -, found⟩ := Except.eq_ok_of_map_eq_ok selected
        exact List.mem_of_find?_eq_some found
      split at refused
      · cases refused
        rfl
      · split at refused
        · exact inductionHypothesis refused
        · next cause stored =>
          cases refused
          exact byShape field listed value record _ stored

theorem readItems_refusesByShape (byShape : ∀ field ∈ fields, field.RefusesByShape)
    {items : List Node} {record : σ} {fault : Fault}
    (refused : readItems fields record items = .error fault) : fault = .malformed none := by
  induction fields generalizing items record with
  | nil =>
    cases items with
    | nil => cases refused
    | cons item rest =>
      cases refused
      rfl
  | cons field others inductionHypothesis =>
    cases items with
    | nil =>
      unfold readItems at refused
      split at refused
      · cases refused
        rfl
      · cases refused
    | cons item rest =>
      unfold readItems at refused
      split at refused
      · exact inductionHypothesis
          (fun other listed => byShape other (List.mem_cons_of_mem field listed)) refused
      · next cause stored =>
        cases refused
        exact byShape field List.mem_cons_self item record _ stored

theorem readMap_refusesByShape (byShape : ∀ field ∈ fields, field.RefusesByShape)
    {start : σ} {entries : List (Node × Node)} {fault : Fault}
    (refused : readMap fields (byName fields) start entries = .error fault) :
    fault = .malformed none := by
  unfold readMap at refused
  split at refused
  · split at refused
    · cases refused
    · cases refused
      rfl
  · next cause failed =>
    cases refused
    exact readEntries_refusesByShape byShape failed

/-- A record whose fields know only shapes knows only shapes itself. -/
theorem readRecord_refusesByShape (byShape : ∀ field ∈ fields, field.RefusesByShape) (start : σ) :
    Node.RefusesByShape (readRecord fields start) := by
  intro node fault refused
  unfold readRecord at refused
  split at refused
  · exact readMap_refusesByShape byShape refused
  · exact readItems_refusesByShape byShape refused
  · split at refused
    · exact readMap_refusesByShape byShape refused
    · cases refused
      rfl

end RecordField

theorem Tag.read_refusesByShape : Node.RefusesByShape Tag.read := by
  apply RecordField.readRecord_refusesByShape
  rw [Tag.fields, List.forall_mem_cons, List.forall_mem_singleton]
  exact ⟨.of Node.refusesByShape_asText "name" _,
    .of (Node.RefusesByShape.asOptional Node.refusesByShape_asText) "description" _⟩

theorem Server.read_refusesByShape : Node.RefusesByShape Server.read := by
  apply RecordField.readRecord_refusesByShape
  rw [Server.fields, List.forall_mem_cons, List.forall_mem_singleton]
  exact ⟨.of Node.refusesByShape_asText "url" _,
    .of (Node.RefusesByShape.asOptional Node.refusesByShape_asText) "description" _⟩

end RouteDocs
