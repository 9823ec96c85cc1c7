import RouteDocs.Proofs.Decimal.Written
import RouteDocs.Proofs.Entries
import RouteDocs.Proofs.Rule.Options
import RouteDocs.Proofs.Text.Blank

namespace RouteDocs

/-!
# Shorthands and rules in typed form

A rule whose options are scalar can be written in two ways: as a shorthand, or
as an object with a type and the options.  Both say the same
(`Rule.ofShorthand_eq_read`), for every kind of rule and whatever the options
are, so that also the faults are the same.

A value is scalar here when a shorthand can write it and its text is not read as
something else: a text must hold no bar, and it must not look like a truth value
or a number.  `Shorthand.Spells` says how a shorthand may be laid out.  White
space may stand around everything, and nothing at all between two bars.
-/

namespace Shorthand

/-! ## The written form -/

/-- The name of a type that a shorthand can begin with. -/
structure IsTypeName (name : String) : Prop where
  nonEmpty : name.toList ≠ []
  trimmed : Text.trimList name.toList = name.toList
  noBar : '|' ∉ name.toList
  /-- Brackets at the end would make a list of the type. -/
  noBrackets : ¬['[', ']'] <:+ name.toList

/-- The name of an option that a shorthand can hold. -/
structure IsOptionName (name : String) : Prop where
  nonEmpty : name.toList ≠ []
  trimmed : Text.trimList name.toList = name.toList
  noBar : '|' ∉ name.toList
  noColon : ':' ∉ name.toList
  noType : name ≠ "type"

instance (name : String) : Decidable (IsTypeName name) :=
  decidable_of_iff (name.toList ≠ [] ∧ Text.trimList name.toList = name.toList ∧
      '|' ∉ name.toList ∧ ['[', ']'].isSuffixOf name.toList = false)
    ⟨fun ⟨nonEmpty, trimmed, noBar, noBrackets⟩ => ⟨nonEmpty, trimmed, noBar, fun ends =>
        Bool.false_ne_true (noBrackets.symm.trans (List.isSuffixOf_iff_suffix.mpr ends))⟩,
      fun named => ⟨named.nonEmpty, named.trimmed, named.noBar,
        Bool.eq_false_iff.mpr (mt List.isSuffixOf_iff_suffix.mp named.noBrackets)⟩⟩

instance (name : String) : Decidable (IsOptionName name) :=
  decidable_of_iff (name.toList ≠ [] ∧ Text.trimList name.toList = name.toList ∧
      '|' ∉ name.toList ∧ ':' ∉ name.toList ∧ name ≠ "type")
    ⟨fun ⟨nonEmpty, trimmed, noBar, noColon, noType⟩ =>
        ⟨nonEmpty, trimmed, noBar, noColon, noType⟩,
      fun named => ⟨named.nonEmpty, named.trimmed, named.noBar, named.noColon, named.noType⟩⟩

/-- A value that a shorthand can hold: a truth value, an integer of sixty-four bits, or
a text that is read as neither. -/
inductive IsPlain : Json → Prop where
  | bool (flag : Bool) : IsPlain (.bool flag)
  | integer {number : Int} (fits : Decimal.fitsSigned number = true) : IsPlain (.integer number)
  | text {characters : String} (trimmed : Text.trimList characters.toList = characters.toList)
      (noBar : '|' ∉ characters.toList) (noTruth : characters ≠ "true" ∧ characters ≠ "false")
      (noInteger : Decimal.integer? characters.toList = none)
      (noReal : Decimal.real? characters.toList = none) : IsPlain (.text characters)

/-- How a plain value is written. -/
def written (value : Json) : List Char :=
  match value with
  | .bool flag => (if flag then "true" else "false").toList
  | .integer number => (toString number).toList
  | .text characters => characters.toList
  | _ => []

/-- A text with white space around another one. -/
def Padded (core text : List Char) : Prop :=
  ∃ front back, Text.Blank front ∧ Text.Blank back ∧ text = front ++ core ++ back

/-- An option is written as its name and its value with a colon between them.
A mark that is set can be written as its name alone. -/
inductive SpellsOption : String × Json → List Char → Prop where
  | mark {name : String} {text : List Char} (padded : Padded name.toList text) :
      SpellsOption (name, .bool true) text
  | valued {name : String} {value : Json} {front back : List Char}
      (paddedName : Padded name.toList front) (paddedValue : Padded (written value) back) :
      SpellsOption (name, value) (front ++ ':' :: back)

/-- Options follow each other, each behind a bar.  There may be further bars. -/
inductive SpellsOptions : List (String × Json) → List Char → Prop where
  | none : SpellsOptions [] []
  | empty {options : List (String × Json)} {part rest : List Char} (blank : Text.Blank part)
      (others : SpellsOptions options rest) : SpellsOptions options ('|' :: (part ++ rest))
  | option {option : String × Json} {options : List (String × Json)} {part rest : List Char}
      (first : SpellsOption option part) (others : SpellsOptions options rest) :
      SpellsOptions (option :: options) ('|' :: (part ++ rest))

/-- A shorthand for a type with options. -/
def Spells (typeName : String) (options : List (String × Json)) (text : String) : Prop :=
  ∃ head rest, Padded typeName.toList head ∧ SpellsOptions options rest ∧
    text.toList = head ++ rest

/-- An object with a type and options; it has no option twice, so it keeps the last value. -/
structure IsObject (typeName : String) (options : List (String × Json)) (entries : Entries Json) :
    Prop where
  typed : entries.get? "type" = some (.text typeName)
  others : Options.Agree (Entries.ofPairs options) entries

/-- The type can be given anywhere among the options. -/
theorem isObject_ofPairs (typeName : String) {before after : List (String × Json)}
    (noType : ∀ option ∈ before ++ after, option.1 ≠ "type") :
    IsObject typeName (before ++ after)
      (Entries.ofPairs (before ++ ("type", .text typeName) :: after)) := by
  have around : Entries.ofPairs (before ++ ("type", .text typeName) :: after) =
      ((Entries.ofPairs before).put "type" (.text typeName)).overlay after := List.foldl_append
  have without : Entries.ofPairs (before ++ after) = (Entries.ofPairs before).overlay after :=
    List.foldl_append
  constructor
  · rw [around, Entries.get?_overlay_of_absent _ fun option member =>
      noType option (List.mem_append_right _ member), Entries.get?_put_self]
  · intro name option
    rw [around, without]
    exact Entries.get?_overlay_congr (Entries.get?_put_of_ne _ _ option).symm after

/-! ## Reading what is written -/

theorem Padded.trimList {core text : List Char} (padded : Padded core text)
    (trimmed : Text.trimList core = core) : Text.trimList text = core := by
  obtain ⟨front, back, blankFront, blankBack, rfl⟩ := padded
  rw [Text.trimList_padded core blankFront blankBack, trimmed]

theorem Padded.not_mem {core text : List Char} {separator : Char} (padded : Padded core text)
    (visible : Text.isBlank separator = false) (absent : separator ∉ core) : separator ∉ text := by
  obtain ⟨front, back, blankFront, blankBack, rfl⟩ := padded
  simp only [List.mem_append, not_or]
  exact ⟨⟨Text.not_mem_of_blank visible blankFront, absent⟩,
    Text.not_mem_of_blank visible blankBack⟩

theorem trimList_written {given : Json} (plain : IsPlain given) :
    Text.trimList (written given) = written given := by
  cases plain with
  | bool flag => cases flag <;> decide
  | integer fits =>
    refine Text.trimList_of_visible fun character member => ?_
    rcases Decimal.eq_sign_or_isDigit_of_mem member with rfl | digit
    · decide
    · exact Text.isBlank_of_isDigit digit
  | text trimmed => exact trimmed

theorem not_mem_written {given : Json} (plain : IsPlain given) : '|' ∉ written given := by
  cases plain with
  | bool flag => cases flag <;> decide
  | integer fits =>
    intro member
    rcases Decimal.eq_sign_or_isDigit_of_mem member with same | digit
    · cases same
    · cases digit
  | text _ noBar => exact noBar

/-- A plain value is read as itself. -/
theorem value_written {given : Json} (plain : IsPlain given) : value (written given) = given := by
  cases plain with
  | bool flag => cases flag <;> rfl
  | @integer number fits =>
    have read := Decimal.integer?_toString fits
    have noTruth : ∀ raw, Decimal.integer? raw = none → written (.integer number) ≠ raw := by
      intro raw unread same
      rw [← same] at unread
      cases read.symm.trans unread
    rw [value, if_neg (noTruth _ rfl), if_neg (noTruth _ rfl)]
    simp only [written, read]
  | @text characters _ _ noTruth noInteger noReal =>
    have different : ∀ other : String, characters ≠ other → characters.toList ≠ other.toList :=
      fun other apart same => apart (String.toList_inj.mp same)
    rw [value, written, if_neg (different _ noTruth.1), if_neg (different _ noTruth.2)]
    simp only [noInteger, noReal, String.ofList_toList]

/-- The part of one option: it has no bar, it is not empty, and it is read as the option. -/
theorem SpellsOption.read {option : String × Json} {part : List Char}
    (spelled : SpellsOption option part) (named : IsOptionName option.1)
    (plain : IsPlain option.2) :
    '|' ∉ part ∧ Text.trimList part ≠ [] ∧ entry (Text.trimList part) = option := by
  have bar : Text.isBlank '|' = false := by decide
  have colon : Text.isBlank ':' = false := by decide
  cases spelled with
  | @mark name _ padded =>
    rw [padded.trimList named.trimmed]
    refine ⟨padded.not_mem bar named.noBar, named.nonEmpty, ?_⟩
    simp only [entry, Text.splitFirst_of_not_mem named.noColon, String.ofList_toList]
  | @valued name value front back paddedName paddedValue =>
    rw [Text.trimList_around colon]
    refine ⟨?_, by simp, ?_⟩
    · simp only [List.mem_append, List.mem_cons, not_or]
      exact ⟨paddedName.not_mem bar named.noBar, by decide,
        paddedValue.not_mem bar (not_mem_written plain)⟩
    · have noColon := Text.not_mem_trimFront (paddedName.not_mem colon named.noColon)
      simp only [entry, Text.splitFirst_append noColon, Text.trimList_trimFront,
        Text.trimList_trimBack, paddedName.trimList named.trimmed,
        paddedValue.trimList (trimList_written plain), value_written plain, String.ofList_toList]

/-- The parts behind the first one are read as the options. -/
theorem SpellsOptions.read {options : List (String × Json)} {rest : List Char}
    (spelled : SpellsOptions options rest) (names : ∀ option ∈ options, IsOptionName option.1)
    (plain : ∀ option ∈ options, IsPlain option.2) {head : List Char} (noBar : '|' ∉ head) :
    ∃ parts, Text.pieces '|' (head ++ rest) = head :: parts ∧
      ((parts.map Text.trimList).filter fun part => !part.isEmpty).map entry = options := by
  induction spelled generalizing head with
  | none => exact ⟨[], by rw [List.append_nil, Text.pieces_of_not_mem noBar], rfl⟩
  | @empty options part rest blank _ inductionHypothesis =>
    obtain ⟨parts, divided, same⟩ := inductionHypothesis names plain
      (Text.not_mem_of_blank (by decide : Text.isBlank '|' = false) blank)
    have none : Text.trimList part = [] := by
      have padded := Text.trimList_padded [] blank Text.blank_nil
      rwa [List.append_nil, List.append_nil] at padded
    refine ⟨part :: parts, by rw [Text.pieces_append noBar, divided], ?_⟩
    simp [none, same]
  | @option option options part rest first _ inductionHypothesis =>
    obtain ⟨name, others⟩ := List.forall_mem_cons.mp names
    obtain ⟨value, values⟩ := List.forall_mem_cons.mp plain
    obtain ⟨noBarInside, nonEmpty, asOption⟩ := first.read name value
    obtain ⟨parts, divided, same⟩ := inductionHypothesis others values noBarInside
    refine ⟨part :: parts, by rw [Text.pieces_append noBar, divided], ?_⟩
    simp [nonEmpty, asOption, same]

theorem parts_of_spells {typeName text : String} {options : List (String × Json)}
    (typed : IsTypeName typeName) (names : ∀ option ∈ options, IsOptionName option.1)
    (plain : ∀ option ∈ options, IsPlain option.2) (spelled : Spells typeName options text) :
    ∃ others, parts text = typeName.toList :: others ∧
      Shorthand.options others = Entries.ofPairs options := by
  obtain ⟨head, rest, padded, follow, whole⟩ := spelled
  have noBar := padded.not_mem (by decide : Text.isBlank '|' = false) typed.noBar
  obtain ⟨others, divided, same⟩ := follow.read names plain noBar
  refine ⟨others.map Text.trimList, ?_, congrArg Entries.ofPairs same⟩
  rw [parts, whole, divided, List.map_cons, padded.trimList typed.trimmed]

theorem IsPlain.isScalar {given : Json} (plain : IsPlain given) : given.IsScalar := by
  cases plain <;> exact ⟨fun _ => (nomatch ·), fun _ => (nomatch ·)⟩

/-- Every option has one of the given values. -/
theorem plain_of_get? {options : List (String × Json)}
    (plain : ∀ option ∈ options, IsPlain option.2) {name : String} {given : Json}
    (found : (Entries.ofPairs options).get? name = some given) : IsPlain given := by
  rcases Entries.mem_or_get?_of_get?_overlay found with listed | impossible
  · exact plain _ listed
  · cases impossible

end Shorthand

namespace Rule

/-- A name without brackets at the end is that of a type. -/
theorem ofHead_of_noBrackets (read : Json → Except RuleFault Rule) {head : List Char}
    (noBrackets : ¬['[', ']'] <:+ head) (options : Options) :
    ofHead read head options =
      (RuleParts.ofOptions (String.ofList head) options).bind fun parts =>
        (parts.readWith read).bind fun rules =>
          Rule.assemble (String.ofList head) options rules := by
  have none : Text.withoutEnding ['[', ']'] head = none :=
    if_neg (mt List.isSuffixOf_iff_suffix.mp noBrackets)
  simp only [ofHead, none]
  rfl

/-- A type name without brackets is read in the steps of the typed form. -/
theorem ofHead_eq_ok {read : Json → Except RuleFault Rule} {name : String} {options : Options}
    {rule : Rule} (noBrackets : ¬['[', ']'] <:+ name.toList)
    (accepted : ofHead read name.toList options = .ok rule) :
    ∃ parts rules, RuleParts.ofOptions name options = .ok parts ∧
      parts.readWith read = .ok rules ∧ Rule.assemble name options rules = .ok rule := by
  rw [ofHead_of_noBrackets read noBrackets, String.ofList_toList] at accepted
  rcases Except.eq_ok_of_bind_eq_ok accepted with ⟨parts, found, afterParts⟩
  rcases Except.eq_ok_of_bind_eq_ok afterParts with ⟨rules, nested, assembled⟩
  exact ⟨parts, rules, found, nested, assembled⟩

theorem ofShorthand_of_parts {text : String} {head : List Char} {others : List (List Char)}
    (parts : Shorthand.parts text = head :: others) (nonEmpty : head ≠ []) :
    ofShorthand text = ofHead ofOptionValue head (Shorthand.options others) := by
  rcases List.exists_cons_of_ne_nil nonEmpty with ⟨character, rest, rfl⟩
  rw [ofShorthand, parts]

theorem read_typed {entries : Entries Json} {name : String}
    (typed : entries.get? "type" = some (.text name)) :
    Rule.read (.object entries) =
      (RuleParts.ofOptions name entries).bind fun parts =>
        (Rule.readParts parts).bind fun rules => Rule.assemble name entries rules := by
  rw [Rule.read]
  simp only [typed]
  split
  · next fault given => rw [given]; rfl
  · next parts given => rw [given]; rfl

/-- Without options nothing is nested in a rule, so nothing is read. -/
theorem ofHead_nil (read other : Json → Except RuleFault Rule) (head : List Char) :
    ofHead read head [] = ofHead other head [] := by
  have same : ∀ name parts, RuleParts.ofOptions name [] = .ok parts →
      parts.readWith read = parts.readWith other := by
    intro name parts given
    have nothing : ∀ (option : String) (value : Json), option ≠ "type" →
        Entries.get? ([] : Options) option = some value → False := fun _ _ _ found => by cases found
    have single : parts.Single fun _ => False :=
      RuleParts.single_of_ofOptions (fun _ => False.elim) nothing given
    exact single.readWith_congr fun _ => False.elim
  have typed : ∀ name, (RuleParts.ofOptions name []).bind (fun parts =>
      (parts.readWith read).bind fun rules => Rule.assemble name [] rules) =
        (RuleParts.ofOptions name []).bind fun parts =>
          (parts.readWith other).bind fun rules => Rule.assemble name [] rules := by
    intro name
    cases given : RuleParts.ofOptions name [] with
    | error fault => rfl
    | ok parts => simp only [Except.bind, same name parts given]
  simp only [ofHead, bind, typed]

theorem ofName_eq_ofShorthand {text : String} (noBar : '|' ∉ text.toList) :
    ofName text = ofShorthand text := by
  have parts : Shorthand.parts text = [Text.trimList text.toList] := by
    rw [Shorthand.parts, Text.pieces_of_not_mem noBar, List.map_singleton]
  cases found : Text.trimList text.toList with
  | nil => simp only [ofName, ofShorthand, parts, found]
  | cons character rest =>
    simp only [ofName, ofShorthand, parts, found]
    exact ofHead_nil _ _ _

/-- A plain value is read alike as a rule and as the value of an option. -/
theorem read_eq_ofOptionValue {given : Json} (plain : Shorthand.IsPlain given) :
    Rule.read given = ofOptionValue given := by
  cases plain with
  | bool flag => simp only [Rule.read, ofOptionValue]
  | integer fits => simp only [Rule.read, ofOptionValue]
  | text _ noBar => simp only [Rule.read, ofOptionValue, ofName_eq_ofShorthand noBar]

/-- A shorthand says the same as the object with its type and its options: it gives
the same rule or the same fault. -/
theorem ofShorthand_eq_read {typeName text : String} {options : List (String × Json)}
    {entries : Entries Json} (typed : Shorthand.IsTypeName typeName)
    (names : ∀ option ∈ options, Shorthand.IsOptionName option.1)
    (plain : ∀ option ∈ options, Shorthand.IsPlain option.2)
    (spelled : Shorthand.Spells typeName options text)
    (object : Shorthand.IsObject typeName options entries) :
    Rule.ofShorthand text = Rule.read (.object entries) := by
  obtain ⟨others, parts, same⟩ := Shorthand.parts_of_spells typed names plain spelled
  have shorthand : Rule.ofShorthand text =
      ofHead ofOptionValue typeName.toList (Entries.ofPairs options) := by
    obtain ⟨character, rest, found⟩ := List.exists_cons_of_ne_nil typed.nonEmpty
    simp only [ofShorthand, parts, found, same]
  rw [shorthand, ofHead_of_noBrackets _ typed.noBrackets, read_typed object.typed,
    String.ofList_toList, RuleParts.ofOptions_congr object.others]
  cases given : RuleParts.ofOptions typeName entries with
  | error fault => rfl
  | ok nested =>
    have held : ∀ name value, name ≠ "type" → entries.get? name = some value →
        Shorthand.IsPlain value := fun name value option found =>
      Shorthand.plain_of_get? plain ((object.others name option).trans found)
    have single := RuleParts.single_of_ofOptions (fun _ => Shorthand.IsPlain.isScalar) held given
    simp only [Except.bind, single.readParts,
      single.readWith_congr fun _ => read_eq_ofOptionValue, Rule.assemble_congr object.others]

/-- A text with its least length, a mark and a pattern, in both forms. -/
theorem ofShorthand_eq_read_string :
    Rule.ofShorthand " string | min : 3 || optional |pattern:a:b" =
      Rule.read (.object
        [("min", .integer 3), ("type", .text "string"), ("optional", .bool true),
          ("pattern", .text "a:b")]) := by
  have space : Text.Blank [' '] := by decide
  have names : ∀ option ∈ [("min", Json.integer 3), ("optional", .bool true),
      ("pattern", .text "a:b")], Shorthand.IsOptionName option.1 := by
    simp only [List.forall_mem_cons]
    exact ⟨by decide, by decide, by decide, fun _ member => nomatch member⟩
  have plain : ∀ option ∈ [("min", Json.integer 3), ("optional", .bool true),
      ("pattern", .text "a:b")], Shorthand.IsPlain option.2 := by
    simp only [List.forall_mem_cons]
    exact ⟨.integer (by decide), .bool true,
      .text (by decide) (by decide) (by decide) (by decide) rfl, fun _ member => nomatch member⟩
  have least : Shorthand.SpellsOption ("min", .integer 3) (" min ".toList ++ ':' :: " 3 ".toList) :=
    .valued ⟨[' '], [' '], space, space, by decide⟩ ⟨[' '], [' '], space, space, by decide⟩
  have mark : Shorthand.SpellsOption ("optional", .bool true) " optional ".toList :=
    .mark ⟨[' '], [' '], space, space, by decide⟩
  have pattern : Shorthand.SpellsOption ("pattern", .text "a:b")
      ("pattern".toList ++ ':' :: "a:b".toList) :=
    .valued ⟨[], [], Text.blank_nil, Text.blank_nil, by decide⟩
      ⟨[], [], Text.blank_nil, Text.blank_nil, by decide⟩
  have spelled : Shorthand.Spells "string"
      [("min", .integer 3), ("optional", .bool true), ("pattern", .text "a:b")]
      " string | min : 3 || optional |pattern:a:b" :=
    ⟨" string ".toList, _, ⟨[' '], [' '], space, space, by decide⟩,
      .option least (.empty Text.blank_nil (.option mark (.option pattern .none))), by decide⟩
  have noType : ∀ option ∈ [("min", Json.integer 3)] ++
      [("optional", .bool true), ("pattern", .text "a:b")], option.1 ≠ "type" :=
    fun option member => (names option member).noType
  exact ofShorthand_eq_read (by decide) names plain spelled
    (Shorthand.isObject_ofPairs "string" noType)

end Rule
end RouteDocs
