import RouteDocs.Fault
import RouteDocs.Proofs.Rule.Reading
import RouteDocs.Proofs.Rule.Shorthand
import RouteDocs.Rule.Params

namespace RouteDocs

/-!
# The fault that is reported

Parameters are read field by field, and reading stops at the first field that cannot
be read.  The message names this field, and what follows is the message for its value
alone; where the value is a nested object, this message names a field in turn.  Only
when every field can be read are the notes looked at.

`Rule.FirstFault` says which message this is without saying how the fields are read:
in front of the named field there are only fields that can be read.  It is the
message in every case of failure, and only when there is one
(`Params.message_names_first_faulty_field`).
-/

namespace Rule

/-- An object without a type, which is a nested object.  The type of its own that it may
have is a shorthand that can be read. -/
structure IsNestedMap (entries : Entries Json) : Prop where
  untyped : entries.get? "type" = none
  ownType : entries.get? nestedTypeKey = none ∨ ∃ shorthand own,
    entries.get? nestedTypeKey = some (.text shorthand) ∧ ofShorthand shorthand = .ok own

/-- Every field among the entries can be read. -/
def AllRead (entries : Entries Json) : Prop :=
  ∀ entry ∈ entries, isReserved entry.1 = false → ∃ rule, Rule.read entry.2 = .ok rule

/-- The message for the entries of an object whose fields or notes cannot be read. -/
inductive FirstFault : Entries Json → String → Prop where
  /-- It names the first field that cannot be read.  Where this is a nested object, the
  message for the field is again the one for the entries of an object. -/
  | field {before after : Entries Json} {name : String} {value : Json} {cause : RuleFault}
      (ordinary : isReserved name = false) (earlier : AllRead before)
      (failed : Rule.read value = .error cause)
      (inside : ∀ entries, value = .object entries → IsNestedMap entries →
        FirstFault entries cause.message) :
      FirstFault (before ++ (name, value) :: after) ("field '" ++ name ++ "': " ++ cause.message)
  /-- Without such a field the notes are at fault. -/
  | notes {entries : Entries Json} {given : Json} (fields : AllRead entries)
      (noted : entries.get? notesKey = some given)
      (failed : ∀ notes, Notes.ofEntries entries ≠ .ok notes) :
      FirstFault entries "invalid '$$oa'"

end Rule

/-! ## Fields and notes -/

theorem Entries.ordinary_cons_of_reserved {α : Type} {entry : String × α}
    (reserved : isReserved entry.1 = true) (entries : Entries α) :
    ordinary (entry :: entries) = entries.ordinary :=
  List.filter_cons_of_neg (by simp only [reserved, Bool.not_true, Bool.false_eq_true,
    not_false_iff])

theorem Entries.ordinary_cons_of_field {α : Type} {entry : String × α}
    (field : isReserved entry.1 = false) (entries : Entries α) :
    ordinary (entry :: entries) = entry :: entries.ordinary :=
  List.filter_cons_of_pos (by simp only [field, Bool.not_false])

/-- Notes fail in one way, and only where they are given. -/
theorem Notes.eq_badNotes_of_ofEntries {entries : Entries Json} {fault : RuleFault}
    (failed : ofEntries entries = .error fault) :
    fault = .badNotes ∧ ∃ given, entries.get? notesKey = some given := by
  unfold ofEntries at failed
  split at failed
  · cases failed
  · next given found =>
    split at failed
    · cases failed
    · cases failed
      exact ⟨rfl, given, found⟩

namespace Rule

theorem AllRead.readFields {entries : Entries Json} (all : AllRead entries) :
    ∃ fields, readFields entries.ordinary = .ok fields := by
  induction entries with
  | nil => exact ⟨[], by rw [Entries.ordinary, List.filter_nil, Rule.readFields]⟩
  | cons entry rest inductionHypothesis =>
    rcases List.forall_mem_cons.mp all with ⟨first, others⟩
    rcases inductionHypothesis others with ⟨fields, read⟩
    cases reserved : isReserved entry.1 with
    | true => exact ⟨fields, by rw [Entries.ordinary_cons_of_reserved reserved, read]⟩
    | false =>
      rcases first reserved with ⟨rule, found⟩
      refine ⟨(entry.1, rule) :: fields, ?_⟩
      rw [Entries.ordinary_cons_of_field reserved, Rule.readFields, found, read]
      rfl

/-- Behind fields that can be read, the first field that cannot is reported. -/
theorem AllRead.readFields_append {before : Entries Json} (earlier : AllRead before)
    {name : String} (field : isReserved name = false) {value : Json} {cause : RuleFault}
    (failed : Rule.read value = .error cause) (after : Entries Json) :
    Rule.readFields (Entries.ordinary (before ++ (name, value) :: after)) =
      .error (.inField name cause) := by
  induction before with
  | nil =>
    rw [List.nil_append, Entries.ordinary_cons_of_field field, Rule.readFields, failed]
    rfl
  | cons entry rest inductionHypothesis =>
    rcases List.forall_mem_cons.mp earlier with ⟨first, others⟩
    have reported := inductionHypothesis others
    rw [List.cons_append]
    cases reserved : isReserved entry.1 with
    | true => rw [Entries.ordinary_cons_of_reserved reserved, reported]
    | false =>
      rcases first reserved with ⟨rule, found⟩
      rw [Entries.ordinary_cons_of_field reserved, Rule.readFields, found, reported]
      rfl

/-- Either every field can be read, or there is a first one that cannot. -/
theorem allRead_or_exists_first (entries : Entries Json) :
    AllRead entries ∨ ∃ before name value after cause,
      entries = before ++ (name, value) :: after ∧ isReserved name = false ∧
        AllRead before ∧ Rule.read value = .error cause := by
  induction entries with
  | nil => exact Or.inl (List.forall_mem_nil _)
  | cons entry rest inductionHypothesis =>
    rcases entry with ⟨name, value⟩
    by_cases readable : isReserved name = false → ∃ rule, Rule.read value = .ok rule
    · rcases inductionHypothesis with all | ⟨before, other, faulty, after, cause, rfl, failure⟩
      · exact Or.inl (List.forall_mem_cons.mpr ⟨readable, all⟩)
      · rcases failure with ⟨field, earlier, failed⟩
        exact Or.inr ⟨(name, value) :: before, other, faulty, after, cause, rfl, field,
          List.forall_mem_cons.mpr ⟨readable, earlier⟩, failed⟩
    · rcases Classical.not_imp.mp readable with ⟨field, unread⟩
      cases result : Rule.read value with
      | ok rule => exact absurd ⟨rule, result⟩ unread
      | error cause =>
        exact Or.inr ⟨[], name, value, rest, cause, rfl, field, List.forall_mem_nil _, result⟩

/-! ## Objects -/

/-- What the fields and the notes of an object make up. -/
def ofFields {α : Type} (entries : Entries Json) (make : Entries Rule → Notes → α) :
    Except RuleFault α :=
  (readFields entries.ordinary).bind fun fields => (Notes.ofEntries entries).map (make fields)

theorem IsNestedMap.read {entries : Entries Json} (nested : IsNestedMap entries) :
    ∃ make, Rule.read (.object entries) = ofFields entries make := by
  have ownType : ∃ own, ofNestedType entries = .ok own := by
    rcases nested.ownType with absent | ⟨shorthand, own, given, accepted⟩
    · exact ⟨{ kind := .object none {} }, by rw [ofNestedType, absent]⟩
    · refine ⟨{ own with kind := .object none {} }, ?_⟩
      rw [ofNestedType, given]
      simp only [accepted]
      rfl
  rcases ownType with ⟨own, read⟩
  refine ⟨fun fields notes => { own with
    kind := .object (some fields) {}
    notes := if notes.isEmpty then own.notes else notes }, ?_⟩
  rw [Rule.read]
  simp only [nested.untyped, read]
  rfl

/-- The message of an object that cannot be read is that for its entries. -/
theorem firstFault_of_ofFields {α : Type} {entries : Entries Json}
    {make : Entries Rule → Notes → α} {fault : RuleFault}
    (failed : ofFields entries make = .error fault) : FirstFault entries fault.message := by
  rcases allRead_or_exists_first entries with
    all | ⟨before, name, value, after, cause, rfl, field, earlier, wrong⟩
  · rcases all.readFields with ⟨fields, read⟩
    rw [ofFields, read] at failed
    have noted : Notes.ofEntries entries = .error fault := Except.eq_error_of_map_eq_error failed
    rcases Notes.eq_badNotes_of_ofEntries noted with ⟨rfl, given, found⟩
    refine .notes all found fun notes same => ?_
    rw [noted] at same
    cases same
  · rw [ofFields, earlier.readFields_append field wrong after] at failed
    cases failed
    -- A nested object is lighter than the entries that it stands among.
    refine .field field earlier wrong fun inner same nested => ?_
    subst same
    have lighter : (Json.object inner).weight <
        (Json.object (before ++ (name, .object inner) :: after)).weight :=
      Json.weight_lt_of_mem_parts (List.mem_map_of_mem (List.mem_append_right _ List.mem_cons_self))
    rcases nested.read with ⟨makeInner, asFields⟩
    rw [asFields] at wrong
    exact firstFault_of_ofFields wrong
termination_by (Json.object entries).weight

theorem FirstFault.ofFields {α : Type} {entries : Entries Json} {message : String}
    (first : FirstFault entries message) (make : Entries Rule → Notes → α) :
    ∃ fault, Rule.ofFields entries make = .error fault ∧ fault.message = message := by
  cases first with
  | field ordinary earlier failed inside =>
    exact ⟨_, by rw [Rule.ofFields, earlier.readFields_append ordinary failed]; rfl, rfl⟩
  | notes fields noted failed =>
    rcases fields.readFields with ⟨rules, read⟩
    cases result : Notes.ofEntries entries with
    | ok notes => exact absurd result (failed notes)
    | error fault =>
      refine ⟨fault, ?_, ?_⟩
      · rw [Rule.ofFields, read, result]
        rfl
      · rw [(Notes.eq_badNotes_of_ofEntries result).1]
        rfl

theorem exists_fault_iff_firstFault {α : Type} {entries : Entries Json} {message : String}
    (make : Entries Rule → Notes → α) :
    (∃ fault, ofFields entries make = .error fault ∧ fault.message = message) ↔
      FirstFault entries message := by
  constructor
  · rintro ⟨fault, failed, rfl⟩
    exact firstFault_of_ofFields failed
  · intro first
    exact first.ofFields make

end Rule

/-- Every failure to read a rule, a shorthand or parameters is reported as an invalid
rule.  The message of parameters without the root mark names the first field that cannot
be read, with the message for its value, and so on through nested objects; where there
is no such field it is about the notes.  The same holds of nested objects themselves.

That a failure is an invalid rule lies in the type of the readers, which have no other
kind of fault.  The first three parts spell out what is reported for it; the order in
which the readers fail is the matter of the last two. -/
theorem Params.message_names_first_faulty_field :
    (∀ (value : Json) (fault : Fault), (Rule.read value).mapError .invalidRule = .error fault →
      ∃ cause, Rule.read value = .error cause ∧ fault.kind = .invalidRule ∧
        fault.message = "Invalid rule: " ++ cause.message) ∧
    (∀ (shorthand : String) (fault : Fault),
      (Rule.ofShorthand shorthand).mapError .invalidRule = .error fault →
        ∃ cause, Rule.ofShorthand shorthand = .error cause ∧ fault.kind = .invalidRule ∧
          fault.message = "Invalid rule: " ++ cause.message) ∧
    (∀ (value : Json) (fault : Fault), (Params.read value).mapError .invalidRule = .error fault →
      ∃ cause, Params.read value = .error cause ∧ fault.kind = .invalidRule ∧
        fault.message = "Invalid rule: " ++ cause.message) ∧
    (∀ (entries : Entries Json) (message : String), Params.isRoot entries = false →
      ((∃ fault, Params.read (.object entries) = .error fault ∧ fault.message = message) ↔
        Rule.FirstFault entries message)) ∧
    ∀ (entries : Entries Json) (message : String), Rule.IsNestedMap entries →
      ((∃ fault, Rule.read (.object entries) = .error fault ∧ fault.message = message) ↔
        Rule.FirstFault entries message) := by
  have invalid : ∀ {α : Type} (result : Except RuleFault α) (fault : Fault),
      result.mapError .invalidRule = .error fault →
        ∃ cause, result = .error cause ∧ fault.kind = .invalidRule ∧
          fault.message = "Invalid rule: " ++ cause.message := by
    intro α result fault failed
    cases result with
    | ok value => cases failed
    | error cause =>
      cases failed
      exact ⟨cause, rfl, rfl, rfl⟩
  refine ⟨fun _ => invalid _, fun _ => invalid _, fun _ => invalid _, ?_, ?_⟩
  · intro entries message unmarked
    have asFields : Params.read (.object entries) = Rule.ofFields entries Params.fields := by
      rw [Params.read, unmarked]
      rfl
    rw [asFields]
    exact Rule.exists_fault_iff_firstFault Params.fields
  · intro entries message nested
    rcases nested.read with ⟨make, asFields⟩
    rw [asFields]
    exact Rule.exists_fault_iff_firstFault make

/-- The second field is a nested object, and its first field is a number. -/
theorem Params.message_names_first_faulty_field_nested :
    (∃ fault, Params.read (.object
        [("$$note", .integer 1), ("a", .text "string"),
          ("b", .object [("$$type", .text "object|optional"), ("c", .integer 5), ("d", .null)]),
          ("e", .text "")]) = .error fault ∧
      fault.message = "field 'b': field 'c': expected a string, array or object rule, found 5") ∧
    (∃ fault, Rule.read (.object
        [("$$type", .text "object|optional"), ("c", .integer 5), ("d", .null)]) = .error fault ∧
      fault.message = "field 'c': expected a string, array or object rule, found 5") ∧
    ∃ cause, Rule.ofShorthand "" = .error cause ∧
      (Fault.invalidRule .emptyShorthand).kind = .invalidRule ∧
      (Fault.invalidRule .emptyShorthand).message = "Invalid rule: " ++ cause.message := by
  have text : Rule.read (.text "string") = .ok .text := by
    rw [Rule.read]
    rfl
  have nested : Rule.IsNestedMap
      [("$$type", .text "object|optional"), ("c", .integer 5), ("d", .null)] :=
    ⟨rfl, Or.inr ⟨"object|optional", _, rfl, rfl⟩⟩
  have number : Rule.read (.integer 5) = .error (.notARule (.integer 5)) := by rw [Rule.read]
  have noField : ∀ (name : String) (value : Json), isReserved name = true →
      Rule.AllRead [(name, value)] := by
    intro name value reserved entry member field
    cases List.mem_singleton.mp member
    exact absurd (field.symm.trans reserved) Bool.false_ne_true
  have inside : Rule.FirstFault
      ([("$$type", .text "object|optional")] ++ ("c", .integer 5) :: [("d", .null)])
      "field 'c': expected a string, array or object rule, found 5" :=
    .field (by decide) (noField _ _ (by decide)) number fun _ same => by cases same
  have second := (message_names_first_faulty_field.2.2.2.2 _ _ nested).mpr inside
  rcases second with ⟨cause, failed, message⟩
  have earlier : Rule.AllRead [("$$note", .integer 1), ("a", .text "string")] :=
    List.forall_mem_cons.mpr ⟨noField _ (.integer 1) (by decide) _ (List.mem_singleton_self _),
      List.forall_mem_singleton.mpr fun _ => ⟨_, text⟩⟩
  have outer : Rule.FirstFault ([("$$note", .integer 1), ("a", .text "string")] ++
      ("b", .object [("$$type", .text "object|optional"), ("c", .integer 5), ("d", .null)]) ::
        [("e", .text "")]) ("field 'b': " ++ cause.message) := by
    refine .field (by decide) earlier failed fun entries same _ => ?_
    cases same
    rw [message]
    exact inside
  rw [message] at outer
  exact ⟨(message_names_first_faulty_field.2.2.2.1 _ _ (by decide)).mpr outer,
    ⟨cause, failed, message⟩, message_names_first_faulty_field.2.1 "" _ rfl⟩

end RouteDocs
