import Mathlib.Data.List.Perm.Basic
import RouteDocs.Rule.Params
import RouteDocs.Proofs.Rule.Reading
import RouteDocs.Proofs.Rule.Shorthand

namespace RouteDocs

/-!
# The mark of a rule for the whole value

Parameters with the root mark are one rule, which is read from the object without the
mark.  The last of the entries behind the mark moves into its place, so the entries may
no longer be in the order in which they were declared.

A rule depends on the order of entries only where these are the fields of an object
without a type (`Rule.read_object_congr`).  So the mark leaves the rule as it is unless
the last entry is a field of such an object, and another field stands between the mark
and it (`Params.root_mark_keeps_rule_iff`).
-/

namespace Rule

variable {entries others : Entries Json}

/-- The order of the entries counts only for the fields of an object without a type. -/
theorem read_object_congr (same : ∀ name, entries.get? name = others.get? name)
    (order : entries.has "type" = true ∨
      entries.filter (fun entry => !isReserved entry.1) =
        others.filter fun entry => !isReserved entry.1) :
    Rule.read (.object entries) = Rule.read (.object others) := by
  have agree : Options.Agree entries others := fun name _ => same name
  cases typed : entries.get? "type" with
  | some value =>
    have typedOther : others.get? "type" = some value := (same "type").symm.trans typed
    cases value with
    | text name =>
      rw [read_typed typed, read_typed typedOther, RuleParts.ofOptions_congr agree]
      simp only [assemble_congr agree]
    | _ =>
      rw [Rule.read, Rule.read]
      simp only [typed, typedOther]
  | none =>
    have untyped : others.get? "type" = none := (same "type").symm.trans typed
    have fields := order.resolve_left (by rw [Entries.has, typed]; decide)
    rw [Rule.read, Rule.read]
    simp only [typed, untyped, ofNestedType, Notes.ofEntries, same, fields]

/-- Whether an object is a rule does not depend on the order of its entries. -/
theorem exists_read_of_perm (distinct : entries.names.Nodup) (perm : entries.Perm others)
    {rule : Rule} (read : Rule.read (.object entries) = .ok rule) :
    ∃ other, Rule.read (.object others) = .ok other := by
  have same := Entries.get?_of_perm distinct perm
  cases typed : entries.has "type" with
  | true => exact ⟨rule, read_object_congr same (Or.inl typed) ▸ read⟩
  | false =>
    have untyped := Entries.get?_eq_none_iff.mpr typed
    rcases (read_untyped_iff untyped).mp read with ⟨own, fields, notes, ofType, declared, noted, -⟩
    -- The fields are read one by one, so those of the other entries are the same, moved.
    rcases List.perm_comp_forall₂ (perm.symm.filter _) declared with ⟨moved, declaredMoved, -⟩
    simp only [ofNestedType, Notes.ofEntries, same] at ofType noted untyped
    exact ⟨_, (read_untyped_iff untyped).mpr ⟨own, moved, notes, ofType, declaredMoved, noted, rfl⟩⟩

end Rule

namespace Params

/-- The entries of an object with the root mark, which makes it one rule. -/
def marked (before after : Entries Json) : Entries Json :=
  before ++ (rootKey, .bool true) :: after

/-- The last of the entries behind the mark is a field, and there is another one before it. -/
def LastFieldMoves (after : Entries Json) : Prop :=
  (∃ last ∈ after.getLast?, isReserved last.1 = false) ∧
    ∃ passed ∈ after.dropLast, isReserved passed.1 = false

instance (after : Entries Json) : Decidable (LastFieldMoves after) :=
  inferInstanceAs (Decidable (_ ∧ _))

/-- Of the fields of a rule, the last one has come to stand in front of the others that
were declared behind the mark. -/
def LastFieldFirst (before after : Entries Json) (rule moved : Rule) : Prop :=
  ∃ front middle last, Rule.FieldsOf before front ∧ Rule.FieldsOf after (middle ++ [last]) ∧
    rule.kind = .object (some (front ++ (middle ++ [last]))) {} ∧
      moved = { rule with kind := .object (some (front ++ last :: middle)) {} }

variable {before after : Entries Json}

theorem lastFieldMoves_concat {between : Entries Json} {last : String × Json} :
    LastFieldMoves (between ++ [last]) ↔
      isReserved last.1 = false ∧ ∃ passed ∈ between, isReserved passed.1 = false := by
  simp only [LastFieldMoves, List.getLast?_append, List.getLast?_singleton, Option.some_or,
    Option.mem_some_iff, exists_eq_left', List.dropLast_concat]

theorem marked_sublist (before after : Entries Json) :
    (before ++ after).Sublist (marked before after) :=
  (List.sublist_cons_self _ after).append_left before

theorem nodup_names_unmarked (distinct : (marked before after).names.Nodup) :
    (Entries.names (before ++ after)).Nodup :=
  distinct.sublist ((marked_sublist before after).map Prod.fst)

theorem unmarked_perm (before after : Entries Json) :
    (before ++ after).Perm (before ++ Entries.lastFirst after) :=
  (Entries.lastFirst_perm after).symm.append_left before

theorem get?_unmarked (distinct : (marked before after).names.Nodup) (name : String) :
    Entries.get? (before ++ after) name = Entries.get? (before ++ Entries.lastFirst after) name :=
  Entries.get?_of_perm (nodup_names_unmarked distinct) (unmarked_perm before after) name

theorem read_marked (distinct : (marked before after).names.Nodup) :
    read (.object (marked before after)) =
      (Rule.read (.object (before ++ Entries.lastFirst after))).map .root := by
  have mark : (marked before after).get? rootKey = some (.bool true) :=
    Entries.get?_of_mem distinct (List.mem_append_right before List.mem_cons_self)
  have root : isRoot (marked before after) = true := by
    rw [isRoot, mark]
  rw [read, if_pos root, marked, Entries.swapErase_around distinct]

theorem filter_lastFirst (stays : ¬LastFieldMoves after) :
    (Entries.lastFirst after).filter (fun entry => !isReserved entry.1) =
      after.filter fun entry => !isReserved entry.1 := by
  rcases after.eq_nil_or_concat' with rfl | ⟨between, last, rfl⟩
  · rfl
  · rw [Entries.lastFirst_concat, List.filter_append]
    cases reserved : isReserved last.1 with
    | true =>
      simp only [List.filter_cons, List.filter_nil, reserved, Bool.not_true, Bool.false_eq_true,
        if_false, List.append_nil]
    | false =>
      have alone : between.filter (fun entry => !isReserved entry.1) = [] := by
        refine List.filter_eq_nil_iff.mpr fun passed member field => stays ?_
        exact lastFieldMoves_concat.mpr ⟨reserved, passed, member, by simpa using field⟩
      simp only [List.filter_cons, List.filter_nil, alone, List.nil_append]

/-- The mark does not count where no field moves. -/
theorem read_marked_of_stays (distinct : (marked before after).names.Nodup)
    (stays : Entries.has (before ++ after) "type" = true ∨ ¬LastFieldMoves after) :
    read (.object (marked before after)) = (Rule.read (.object (before ++ after))).map .root := by
  rw [read_marked distinct, Rule.read_object_congr (get?_unmarked distinct)]
  refine stays.imp_right fun stays => ?_
  rw [List.filter_append, List.filter_append, filter_lastFirst stays]

/-- A field that moves passes the other fields behind the mark, and nothing else changes. -/
theorem read_marked_of_moves (distinct : (marked before after).names.Nodup)
    (untyped : Entries.has (before ++ after) "type" = false) (moves : LastFieldMoves after)
    {rule : Rule} (whole : Rule.read (.object (before ++ after)) = .ok rule) :
    ∃ moved, read (.object (marked before after)) = .ok (.root moved) ∧ moved ≠ rule ∧
      LastFieldFirst before after rule moved := by
  have noType := Entries.get?_eq_none_iff.mpr untyped
  rcases (Rule.read_untyped_iff noType).mp whole with
    ⟨own, fields, notes, ofType, declared, noted, rfl⟩
  rcases declared.exists_append with ⟨front, behind, rfl, ofFront, ofBehind⟩
  rcases after.eq_nil_or_concat' with rfl | ⟨between, last, rfl⟩
  · exact absurd moves (by decide)
  rcases lastFieldMoves_concat.mp moves with ⟨field, passed, listed, passedField⟩
  rcases ofBehind.exists_append with ⟨middle, alone, rfl, ofMiddle, ofLast⟩
  rcases ofLast.exists_singleton field with ⟨only, rfl⟩
  have moved : Rule.FieldsOf (before ++ Entries.lastFirst (between ++ [last]))
      (front ++ only :: middle) := by
    rw [Entries.lastFirst_concat]
    exact ofFront.append (ofLast.append ofMiddle)
  have nonEmpty : middle ≠ [] := by
    rintro rfl
    have nothing := List.forall₂_nil_right_iff.mp ofMiddle
    exact List.filter_eq_nil_iff.mp nothing passed listed (by rw [passedField]; rfl)
  have distinctFields : (front ++ (middle ++ [only])).Nodup :=
    (declared.nodup_names (nodup_names_unmarked distinct)).of_map
  have different : front ++ only :: middle ≠ front ++ (middle ++ [only]) := fun equal =>
    Entries.cons_ne_concat distinctFields.of_append_right nonEmpty (List.append_cancel_left equal)
  simp only [Rule.ofNestedType, Notes.ofEntries, get?_unmarked distinct] at ofType noted noType
  refine ⟨_, ?_, ?_, front, middle, only, ofFront, ofBehind, rfl, rfl⟩
  · rw [read_marked distinct,
      (Rule.read_untyped_iff noType).mpr ⟨own, _, notes, ofType, moved, noted, rfl⟩]
    rfl
  · intro equal
    injection equal with kinds
    injection kinds with named
    exact different (Option.some.inj named)

/-- The mark leaves a rule as it is exactly where the rule has a type or no field moves.
Elsewhere the last field comes to stand in front of the others behind the mark.  What is
no rule without the mark is none with it, though another fault may come first. -/
theorem root_mark_keeps_rule_iff (distinct : (marked before after).names.Nodup) :
    (∀ rule, Rule.read (.object (before ++ after)) = .ok rule →
      ∃ moved, read (.object (marked before after)) = .ok (.root moved) ∧
        (moved = rule ↔ Entries.has (before ++ after) "type" = true ∨ ¬LastFieldMoves after) ∧
        (moved = rule ∨ LastFieldFirst before after rule moved)) ∧
    ∀ fault, Rule.read (.object (before ++ after)) = .error fault →
      ∃ other, read (.object (marked before after)) = .error other ∧
        (Entries.has (before ++ after) "type" = true ∨ ¬LastFieldMoves after → other = fault) := by
  constructor
  · intro rule whole
    by_cases stays : Entries.has (before ++ after) "type" = true ∨ ¬LastFieldMoves after
    · refine ⟨rule, ?_, iff_of_true rfl stays, Or.inl rfl⟩
      rw [read_marked_of_stays distinct stays, whole]
      rfl
    · rw [not_or, Bool.not_eq_true, not_not] at stays
      rcases read_marked_of_moves distinct stays.1 stays.2 whole with
        ⟨moved, read, different, lastFirst⟩
      refine ⟨moved, read, iff_of_false different ?_, Or.inr lastFirst⟩
      rw [not_or, Bool.not_eq_true, not_not]
      exact stays
  · intro fault failed
    have perm := (unmarked_perm before after).symm
    have distinctMoved := (perm.map Prod.fst).nodup_iff.mpr (nodup_names_unmarked distinct)
    have whole := read_marked distinct
    cases moved : Rule.read (.object (before ++ Entries.lastFirst after)) with
    | error other =>
      rw [moved] at whole
      refine ⟨other, whole, fun stays => ?_⟩
      rw [read_marked_of_stays distinct stays, failed] at whole
      exact (Except.error.inj whole).symm
    | ok rule =>
      rcases Rule.exists_read_of_perm distinctMoved perm moved with ⟨other, read⟩
      rw [read] at failed
      cases failed

/-- The mark may stand between the fields, when the last entry is not a field. -/
theorem root_mark_keeps_rule_iff_person :
    read (.object [("name", .text "string"), ("$$root", .bool true), ("age", .text "number"),
        ("$$oa", .object [("summary", .text "Who it is")])]) =
      .ok (.root {
        kind := .object (some [("name", .text), ("age", .number)]) {}
        notes := { summary := some "Who it is" } }) := by
  have stays : ¬LastFieldMoves
      [("age", .text "number"), ("$$oa", .object [("summary", .text "Who it is")])] := by decide
  have whole : Rule.read (.object [("name", .text "string"), ("age", .text "number"),
      ("$$oa", .object [("summary", .text "Who it is")])]) = .ok {
        kind := .object (some [("name", .text), ("age", .number)]) {}
        notes := { summary := some "Who it is" } } :=
    (Rule.read_untyped_iff rfl).mpr ⟨_, _, _, rfl,
      .cons ⟨rfl, by rw [Rule.read]; rfl⟩ (.cons ⟨rfl, by rw [Rule.read]; rfl⟩ .nil), rfl, rfl⟩
  have distinct : (marked [("name", .text "string")] [("age", .text "number"),
      ("$$oa", .object [("summary", .text "Who it is")])]).names.Nodup := by decide
  rcases (root_mark_keeps_rule_iff distinct).1 _ whole with ⟨moved, read, keeps, -⟩
  rw [keeps.mpr (Or.inr stays)] at read
  exact read

/-- Two fields behind the mark are exchanged. -/
theorem root_mark_exchanges_fields :
    Rule.read (.object [("a", .text "string"), ("b", .text "string")]) =
      .ok (.object [("a", .text), ("b", .text)]) ∧
    read (.object [("$$root", .bool true), ("a", .text "string"), ("b", .text "string")]) =
      .ok (.root (.object [("b", .text), ("a", .text)])) ∧
    read (.object [("$$root", .bool true), ("a", .text "string"), ("b", .text "string")]) ≠
      .ok (.root (.object [("a", .text), ("b", .text)])) := by
  have text : Rule.read (.text "string") = .ok .text := by
    rw [Rule.read]
    rfl
  have whole : Rule.read (.object [("a", .text "string"), ("b", .text "string")]) =
      .ok (.object [("a", .text), ("b", .text)]) :=
    (Rule.read_untyped_iff rfl).mpr
      ⟨_, _, _, rfl, .cons ⟨rfl, text⟩ (.cons ⟨rfl, text⟩ .nil), rfl, rfl⟩
  have moved : Rule.read (.object [("b", .text "string"), ("a", .text "string")]) =
      .ok (.object [("b", .text), ("a", .text)]) :=
    (Rule.read_untyped_iff rfl).mpr
      ⟨_, _, _, rfl, .cons ⟨rfl, text⟩ (.cons ⟨rfl, text⟩ .nil), rfl, rfl⟩
  have distinct : (marked [] [("a", .text "string"), ("b", .text "string")]).names.Nodup := by
    decide
  have root : read (.object [("$$root", .bool true), ("a", .text "string"),
      ("b", .text "string")]) = .ok (.root (.object [("b", .text), ("a", .text)])) :=
    (read_marked distinct).trans (congrArg (Except.map Params.root) moved)
  refine ⟨whole, root, ?_⟩
  rw [root]
  intro same
  have exchanged :
      [("b", Rule.text), ("a", Rule.text)] = [("a", Rule.text), ("b", Rule.text)] := by
    simpa only [Except.ok.injEq, Params.root.injEq, Rule.object, Rule.mk.injEq,
      RuleKind.object.injEq, Option.some.injEq, and_true] using same
  have names : "b" = "a" := congrArg Prod.fst (List.cons.inj exchanged).1
  exact absurd names (by decide)

end Params
end RouteDocs
