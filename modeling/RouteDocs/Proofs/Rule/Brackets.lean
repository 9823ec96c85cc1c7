import RouteDocs.Proofs.Rule.Reading
import RouteDocs.Proofs.Rule.Shorthand

namespace RouteDocs

/-!
# Lists in brackets

A shorthand whose type name has brackets behind it is a list with the options of
the shorthand.  Its items have the type that stands in front of the brackets, as if
this stood alone (`Rule.brackets_make_list_iff`), with one exception.  Brackets
are taken off once only.  Where more of them stand in front, the items are not
lists: they have a type of an unknown name, the brackets included.
-/

namespace Shorthand

/-- The options that are written as some texts. -/
def optionsOf (written : List String) : Options :=
  options (written.map fun option => Text.trimList option.toList)

/-- The parts of a shorthand are those that it was put together from, trimmed. -/
theorem parts_intercalate {head : String} {written : List String} (noBar : '|' ∉ head.toList)
    (noBars : ∀ option ∈ written, '|' ∉ option.toList) :
    parts ("|".intercalate (head :: written)) =
      Text.trimList head.toList :: written.map fun option => Text.trimList option.toList := by
  have absent : ∀ part ∈ (head :: written).map String.toList, '|' ∉ part := by
    intro part member
    rcases List.mem_map.mp member with ⟨text, listed, rfl⟩
    rcases List.mem_cons.mp listed with rfl | option
    · exact noBar
    · exact noBars text option
  have bar : "|".toList = ['|'] := by decide
  have some : (head :: written).map String.toList ≠ [] := List.cons_ne_nil _ _
  rw [parts, String.toList_intercalate, bar, Text.pieces_intercalate some absent, List.map_map,
    List.map_cons]
  rfl

theorem get?_optionsOf_eq_none {written : List String} {name : String}
    (absent : ∀ option ∈ written, (entry (Text.trimList option.toList)).1 ≠ name) :
    Entries.get? (optionsOf written) name = none := by
  refine Entries.get?_overlay_of_absent [] fun option member => ?_
  rcases List.mem_map.mp member with ⟨part, kept, rfl⟩
  rcases List.mem_map.mp (List.mem_filter.mp kept).1 with ⟨text, listed, rfl⟩
  exact absent text listed

end Shorthand

namespace RuleTag

/-- No kind has a name with brackets behind it. -/
theorem ofName?_of_brackets {name : String} (brackets : ['[', ']'] <:+ name.toList) :
    ofName? name = none := by
  have none : ∀ tag ∈ known, ¬['[', ']'] <:+ tag.name.toList := by decide
  apply List.find?_eq_none.mpr
  intro tag member same
  rw [← beq_iff_eq.mp same] at brackets
  exact none tag member brackets

end RuleTag

namespace Rule

variable {read : Json → Except RuleFault Rule} {options : Options} {list : Rule}

theorem ofShorthand_intercalate {head : String} {written : List String}
    (nonEmpty : head.toList ≠ []) (trimmed : Text.trimList head.toList = head.toList)
    (noBar : '|' ∉ head.toList) (noBars : ∀ option ∈ written, '|' ∉ option.toList) :
    ofShorthand ("|".intercalate (head :: written)) =
      ofHead ofOptionValue head.toList (Shorthand.optionsOf written) := by
  have parts := Shorthand.parts_intercalate noBar noBars
  rw [trimmed] at parts
  exact ofShorthand_of_parts parts nonEmpty

/-- Without options there is nothing that a rule could nest. -/
theorem ofHead_without_options {head : List Char} (noBrackets : ¬['[', ']'] <:+ head) :
    ofHead read head [] = Rule.assemble (String.ofList head) [] .none := by
  rw [ofHead_of_noBrackets read noBrackets]
  unfold RuleParts.ofOptions Rule.assemble RuleKind.assemble
  cases RuleTag.ofName? (String.ofList head) with
  | none => rfl
  | some tag => cases tag <;> rfl

/-- A list without a rule for its items has none among its options. -/
theorem exists_limits_of_array (noItems : Entries.get? options "items" = none)
    (accepted : ofHead read "array".toList options = .ok list) :
    ∃ limits, list.kind = .array none limits := by
  have nothing : options.given? "items" = none := by simp only [Options.given?, noItems]
  have array : RuleTag.ofName? "array" = some .array := by decide
  rcases ofHead_eq_ok (by decide) accepted with ⟨parts, rules, found, nested, assembled⟩
  simp only [RuleParts.ofOptions, array, nothing] at found
  cases found
  cases nested
  have kind := (Rule.assemble_eq_ok assembled).1
  simp only [RuleKind.assemble, array] at kind
  rcases Except.eq_ok_of_map_eq_ok kind with ⟨limits, -, same⟩
  exact ⟨limits, same.symm⟩

/-- A name with brackets behind it is not the name of a kind, and it is kept as it is. -/
theorem assemble_of_brackets {name : String} (brackets : ['[', ']'] <:+ name.toList) :
    Rule.assemble name [] .none = .ok { kind := .other name } := by
  simp only [Rule.assemble, RuleKind.assemble, RuleTag.ofName?_of_brackets brackets]
  rfl

/-- Brackets behind a name put the type of this name into the list with the options. -/
theorem ofHead_brackets {items : Option Rule} {limits : ListLimits}
    (accepted : ofHead read "array".toList options = .ok list)
    (array : list.kind = .array items limits) (front : List Char) :
    ofHead read (front ++ ['[', ']']) options =
      (Rule.assemble (String.ofList front) [] .none).map fun item =>
        { list with kind := .array (some item) limits } := by
  have noBrackets : ¬['[', ']'] <:+ "array".toList := by decide
  rw [ofHead_of_noBrackets read noBrackets, String.ofList_toList] at accepted
  have typed : ((RuleParts.ofOptions RuleTag.array.name options).bind fun parts =>
      (parts.readWith read).bind fun rules =>
        Rule.assemble RuleTag.array.name options rules) = .ok list := accepted
  simp only [ofHead, Text.withoutEnding_append, bind, typed]
  cases assembled : Rule.assemble (String.ofList front) [] .none with
  | error fault => rfl
  | ok item => simp only [Except.bind, array]; rfl

/-- What a name with brackets stands for alone is a list. -/
theorem array_of_brackets {front : List Char} {item : Rule}
    (alone : ofHead read (front ++ ['[', ']']) [] = .ok item) :
    ∃ inner, item.kind = .array (some inner) {} := by
  have accepted : ofHead read "array".toList [] = .ok { kind := .array none {} } :=
    ofHead_without_options (by decide)
  rw [ofHead_brackets accepted rfl] at alone
  rcases Except.eq_ok_of_map_eq_ok alone with ⟨inner, -, rfl⟩
  exact ⟨inner, rfl⟩

/-- A shorthand with brackets behind its type name, when the options are those of a list. -/
theorem ofShorthand_brackets {typeName : String} {written : List String} {items : Option Rule}
    {limits : ListLimits} (nonEmpty : typeName.toList ≠ [])
    (trimmed : Text.trimList typeName.toList = typeName.toList) (noBar : '|' ∉ typeName.toList)
    (noBars : ∀ option ∈ written, '|' ∉ option.toList)
    (accepted : ofHead ofOptionValue "array".toList (Shorthand.optionsOf written) = .ok list)
    (array : list.kind = .array items limits) :
    ofShorthand ("|".intercalate ((typeName ++ "[]") :: written)) =
      (Rule.assemble typeName [] .none).map fun item =>
        { list with kind := .array (some item) limits } := by
  have characters : (typeName ++ "[]").toList = typeName.toList ++ ['[', ']'] :=
    String.toList_append
  have some : (typeName ++ "[]").toList ≠ [] := by
    rw [characters]
    exact List.append_ne_nil_of_left_ne_nil nonEmpty _
  have trimmedWhole : Text.trimList (typeName ++ "[]").toList = (typeName ++ "[]").toList := by
    rw [characters, Text.trimList_around (by decide), Text.trimFront_of_trimmed trimmed]
    rfl
  have noBarWhole : '|' ∉ (typeName ++ "[]").toList := by
    rw [characters, List.mem_append, not_or]
    exact ⟨noBar, by decide⟩
  rw [ofShorthand_intercalate some trimmedWhole noBarWhole noBars, characters,
    ofHead_brackets accepted array, String.ofList_toList]

/-- A type name with brackets and any options but a rule for the items makes the
list with these options whose items are what the name alone stands for.  This fails
for the names that have brackets themselves: then the items have a type of this name. -/
theorem brackets_make_list_iff {typeName : String} {written : List String} {item list : Rule}
    (trimmed : Text.trimList typeName.toList = typeName.toList) (noBar : '|' ∉ typeName.toList)
    (alone : ofShorthand typeName = .ok item)
    (noBars : ∀ option ∈ written, '|' ∉ option.toList)
    (noItems : ∀ option ∈ written, (Shorthand.entry (Text.trimList option.toList)).1 ≠ "items")
    (accepted : ofShorthand ("|".intercalate ("array" :: written)) = .ok list) :
    ∃ limits, list.kind = .array none limits ∧
      (ofShorthand ("|".intercalate ((typeName ++ "[]") :: written)) =
          .ok { list with kind := .array (some item) limits } ↔ ¬['[', ']'] <:+ typeName.toList) ∧
      (['[', ']'] <:+ typeName.toList →
        ofShorthand ("|".intercalate ((typeName ++ "[]") :: written)) =
          .ok { list with kind := .array (some { kind := .other typeName }) limits }) := by
  have nonEmpty : typeName.toList ≠ [] := by
    intro empty
    rw [String.toList_eq_nil_iff.mp empty] at alone
    cases alone
  have ofName := ofShorthand_intercalate nonEmpty trimmed noBar (List.forall_mem_nil _)
  rw [String.intercalate_singleton, alone] at ofName
  rw [ofShorthand_intercalate (by decide) (by decide) (by decide) noBars] at accepted
  rcases exists_limits_of_array (Shorthand.get?_optionsOf_eq_none noItems) accepted with
    ⟨limits, array⟩
  rw [ofShorthand_brackets nonEmpty trimmed noBar noBars accepted array]
  refine ⟨limits, array, ⟨?_, ?_⟩, ?_⟩
  · intro same brackets
    rw [assemble_of_brackets brackets] at same
    rcases brackets with ⟨front, characters⟩
    rw [← characters] at ofName
    rcases array_of_brackets ofName.symm with ⟨inner, kind⟩
    cases same
    cases kind
  · intro noBrackets
    have ofType : Rule.assemble typeName [] .none = .ok item := by
      rw [← String.ofList_toList (s := typeName), ← ofHead_without_options noBrackets, ofName]
      rfl
    rw [ofType]
    rfl
  · intro brackets
    rw [assemble_of_brackets brackets]
    rfl

/-- Texts of a list without repetitions, of which there is at least one. -/
theorem brackets_make_list_iff_tags :
    ofShorthand "string[]|unique|min: 1|optional" =
      .ok {
        kind := .array (some .text) { min := some 1, unique := true }
        optional := true } := by
  have item : ofShorthand "string" = .ok .text := rfl
  have noBars : ∀ option ∈ ["unique", "min: 1", "optional"], '|' ∉ option.toList := by decide
  have list : ofShorthand ("|".intercalate ["array", "unique", "min: 1", "optional"]) = .ok {
      kind := .array none { min := some 1, unique := true }
      optional := true } := rfl
  rcases brackets_make_list_iff (by decide) (by decide) item noBars (by decide) list with
    ⟨limits, array, composes, -⟩
  cases array
  exact composes.mpr (by decide)

/-- Brackets are taken off once: the items of a list of lists are no lists. -/
theorem list_of_lists_is_lost :
    ofShorthand "string[]" = .ok (.array .text) ∧
    ofShorthand "array" = .ok { kind := .array none {} } ∧
    ofShorthand "string[][]" = .ok (.array { kind := .other "string[]" }) ∧
    ofShorthand "string[][]" ≠ .ok (.array (.array .text)) := by
  refine ⟨rfl, rfl, rfl, ?_⟩
  intro same
  cases same

end Rule
end RouteDocs
