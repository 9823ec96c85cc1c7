import Mathlib.Data.List.Chain
import RouteDocs.Proofs.Text.Blank
import RouteDocs.Route.Path

namespace RouteDocs
namespace Path

/-!
# The normal form of paths

A normal path begins with a slash, has no two slashes in a row, ends with a slash
only when it is nothing else, and marks no placeholder by a colon.  Normalizing gives
such a path for every text, and the steps after trimming leave a normal path as it is.

Trimming is the exception.  A slash at the end is dropped after the text was trimmed,
so white space in front of it comes to the end of the result, where a second
normalization finds it.  Only this keeps normalization from being idempotent
(`normalize_idempotent_iff`).

Of the trimmed text only marks, which are slashes, colons and braces, are added,
exchanged or left out (`normalize_canonical_unmarked`).
-/

/-- Two neighbours that are not both slashes. -/
def NotSlashes (first second : Char) : Prop :=
  ¬(first = '/' ∧ second = '/')

/-- Two neighbours that are not a colon with the name behind it. -/
def NotMarked (first second : Char) : Prop :=
  ¬(first = ':' ∧ isNameCharacter second = true)

structure Canonical (characters : List Char) : Prop where
  begins : characters.head? = some '/'
  noSlashes : characters.IsChain NotSlashes
  noMarks : characters.IsChain NotMarked
  ends : characters.getLast? = some '/' → characters = ['/']

/-- The normal form of a text that is trimmed already. -/
def form (trimmed : List Char) : List Char :=
  dropLastSlash ('/' :: collapse true (brace false trimmed))

theorem toList_normalize (path : String) :
    (normalize path).toList = form (Text.trimList path.toList) :=
  String.toList_ofList

/-! ## Braces -/

theorem isChain_notMarked_cons {character : Char} {rest : List Char} :
    (character :: rest).IsChain NotMarked ↔
      (character == ':' && beginsName rest) = false ∧ rest.IsChain NotMarked := by
  cases rest with
  | nil => simp [beginsName]
  | cons next others => simp [List.isChain_cons_cons, NotMarked, beginsName]

theorem brace_outside (character : Char) (rest : List Char) :
    brace false (character :: rest) =
      (if character == ':' && beginsName rest then '\x7b' else character) ::
        brace (character == ':' && beginsName rest) rest := by
  simp only [brace, Bool.false_and, Bool.false_eq_true, if_false, List.nil_append]

theorem brace_named {character : Char} (named : isNameCharacter character = true)
    (rest : List Char) : brace true (character :: rest) = character :: brace true rest := by
  simp only [brace, named, Bool.and_self, if_true]

/-- A character that is in no name closes the name before it. -/
theorem brace_closed {character : Char} (plain : isNameCharacter character = false)
    (rest : List Char) :
    brace true (character :: rest) = '\x7d' :: brace false (character :: rest) := by
  rw [brace_outside]
  simp only [brace, plain, Bool.and_false, Bool.false_eq_true, if_false, if_true,
    List.singleton_append]

/-- Without a mark there is nothing to write between braces. -/
theorem brace_of_isChain {characters : List Char} (chain : characters.IsChain NotMarked) :
    brace false characters = characters := by
  induction characters with
  | nil => rfl
  | cons character rest inductionHypothesis =>
    obtain ⟨unmarked, others⟩ := isChain_notMarked_cons.mp chain
    rw [brace_outside, unmarked, inductionHypothesis others]
    rfl

theorem beginsName_brace (characters : List Char) :
    beginsName (brace false characters) = beginsName characters := by
  cases characters with
  | nil => rfl
  | cons character rest =>
    rw [brace_outside]
    split
    · next marked =>
      rw [Bool.and_eq_true, beq_iff_eq] at marked
      rw [marked.1]
      rfl
    · rfl

/-- Braces leave no mark behind. -/
theorem isChain_brace (inside : Bool) (characters : List Char) :
    (brace inside characters).IsChain NotMarked := by
  induction characters generalizing inside with
  | nil => cases inside <;> simp [brace]
  | cons character rest inductionHypothesis =>
    have outside : (brace false (character :: rest)).IsChain NotMarked := by
      rw [brace_outside, isChain_notMarked_cons]
      cases marked : character == ':' && beginsName rest with
      | true => exact ⟨rfl, inductionHypothesis true⟩
      | false =>
        refine ⟨?_, inductionHypothesis false⟩
        rw [beginsName_brace]
        exact marked
    cases inside with
    | false => exact outside
    | true =>
      cases named : isNameCharacter character with
      | true =>
        have notColon : character ≠ ':' := by
          rintro rfl
          cases named
        rw [brace_named named, isChain_notMarked_cons, beq_eq_false_iff_ne.mpr notColon]
        exact ⟨rfl, inductionHypothesis true⟩
      | false =>
        rw [brace_closed named, isChain_notMarked_cons]
        exact ⟨rfl, outside⟩

/-- What is in no name is read on its own. -/
theorem brace_append {character : Char} (plain : isNameCharacter character = false)
    (inside : Bool) (front rest : List Char) :
    brace inside (front ++ character :: rest) =
      brace inside front ++ brace false (character :: rest) := by
  induction front generalizing inside with
  | nil =>
    cases inside with
    | false => rfl
    | true => exact brace_closed plain rest
  | cons first others inductionHypothesis =>
    have sameBeginning : beginsName (others ++ character :: rest) = beginsName others := by
      cases others with
      | nil => exact plain
      | cons next further => rfl
    have outside : brace false (first :: others ++ character :: rest) =
        brace false (first :: others) ++ brace false (character :: rest) := by
      rw [List.cons_append, brace_outside, brace_outside first others, sameBeginning,
        inductionHypothesis, List.cons_append]
    cases inside with
    | false => exact outside
    | true =>
      cases named : isNameCharacter first with
      | true =>
        rw [List.cons_append, brace_named named, brace_named named, inductionHypothesis,
          List.cons_append]
      | false =>
        rw [brace_closed named, List.cons_append, brace_closed named, ← List.cons_append, outside,
          List.cons_append]

theorem brace_slashes {slashes : List Char} (only : ∀ character ∈ slashes, character = '/') :
    brace false slashes = slashes := by
  induction slashes with
  | nil => rfl
  | cons character rest inductionHypothesis =>
    obtain ⟨rfl, others⟩ := List.forall_mem_cons.mp only
    exact congrArg ('/' :: ·) (inductionHypothesis others)

theorem brace_append_slashes (core : List Char) {slashes : List Char}
    (only : ∀ character ∈ slashes, character = '/') :
    brace false (core ++ slashes) = brace false core ++ slashes := by
  cases slashes with
  | nil => rw [List.append_nil, List.append_nil]
  | cons first others =>
    obtain ⟨rfl, -⟩ := List.forall_mem_cons.mp only
    rw [brace_append (by decide), brace_slashes only]

theorem brace_cons_ne_nil (inside : Bool) (character : Char) (rest : List Char) :
    brace inside (character :: rest) ≠ [] := by
  have outside : brace false (character :: rest) ≠ [] := by
    rw [brace_outside]
    exact List.cons_ne_nil _ _
  cases inside with
  | false => exact outside
  | true =>
    cases named : isNameCharacter character with
    | true => rw [brace_named named]; exact List.cons_ne_nil _ _
    | false => rw [brace_closed named]; exact List.cons_ne_nil _ _

theorem brace_true_ne_nil (characters : List Char) : brace true characters ≠ [] := by
  cases characters with
  | nil => exact List.cons_ne_nil _ _
  | cons character rest => exact brace_cons_ne_nil true character rest

/-- What stands last is the last character of the text, or else the brace that closes
a name. -/
theorem getLast?_of_brace {last : Char} (noBrace : last ≠ '\x7d') {inside : Bool}
    {characters : List Char} (found : (brace inside characters).getLast? = some last) :
    characters.getLast? = some last := by
  induction characters generalizing inside with
  | nil =>
    cases inside with
    | false => exact found
    | true => exact absurd (Option.some.inj found).symm noBrace
  | cons character rest inductionHypothesis =>
    have outside : (brace false (character :: rest)).getLast? = some last →
        (character :: rest).getLast? = some last := by
      intro found
      rw [brace_outside] at found
      cases rest with
      | nil => simpa [beginsName, brace] using found
      | cons next others =>
        rw [List.getLast?_cons_of_ne_nil (brace_cons_ne_nil _ next others)] at found
        rw [List.getLast?_cons_of_ne_nil (List.cons_ne_nil _ _)]
        exact inductionHypothesis found
    cases inside with
    | false => exact outside found
    | true =>
      cases named : isNameCharacter character with
      | true =>
        rw [brace_named named, List.getLast?_cons_of_ne_nil (brace_true_ne_nil rest)] at found
        rw [List.getLast?_cons, inductionHypothesis found, Option.getD_some]
      | false =>
        rw [brace_closed named,
          List.getLast?_cons_of_ne_nil (brace_cons_ne_nil false character rest)] at found
        exact outside found

/-! ## Slashes -/

theorem collapse_slash_of_true (rest : List Char) :
    collapse true ('/' :: rest) = collapse true rest := rfl

theorem collapse_slash_of_false (rest : List Char) :
    collapse false ('/' :: rest) = '/' :: collapse true rest := rfl

theorem collapse_of_ne {character : Char} (other : character ≠ '/') (afterSlash : Bool)
    (rest : List Char) :
    collapse afterSlash (character :: rest) = character :: collapse false rest := by
  simp only [collapse, other, if_false]

/-- Behind a slash that is written already, as behind none. -/
theorem isChain_notSlashes_collapse (characters : List Char) :
    ('/' :: collapse true characters).IsChain NotSlashes ∧
      (collapse false characters).IsChain NotSlashes := by
  induction characters with
  | nil => exact ⟨.singleton _, .nil⟩
  | cons character rest inductionHypothesis =>
    obtain ⟨behindSlash, behindOther⟩ := inductionHypothesis
    by_cases slash : character = '/'
    · subst slash
      exact ⟨behindSlash, behindSlash⟩
    · have head : ∀ first, NotSlashes first character := fun _ both => slash both.2
      have whole : (character :: collapse false rest).IsChain NotSlashes :=
        List.isChain_cons.mpr ⟨fun next _ both => slash both.1, behindOther⟩
      rw [collapse_of_ne slash, collapse_of_ne slash]
      exact ⟨List.isChain_cons_cons.mpr ⟨head '/', whole⟩, whole⟩

theorem beginsName_collapse (characters : List Char) :
    beginsName (collapse false characters) = beginsName characters := by
  cases characters with
  | nil => rfl
  | cons character rest =>
    by_cases slash : character = '/'
    · subst slash
      rfl
    · rw [collapse_of_ne slash]
      rfl

/-- Where slashes are left out, no colon comes to stand in front of a name. -/
theorem isChain_notMarked_collapse {characters : List Char}
    (chain : characters.IsChain NotMarked) (afterSlash : Bool) :
    (collapse afterSlash characters).IsChain NotMarked := by
  induction characters generalizing afterSlash with
  | nil => exact .nil
  | cons character rest inductionHypothesis =>
    obtain ⟨unmarked, others⟩ := isChain_notMarked_cons.mp chain
    by_cases slash : character = '/'
    · subst slash
      cases afterSlash with
      | true => exact inductionHypothesis others true
      | false => exact isChain_notMarked_cons.mpr ⟨rfl, inductionHypothesis others true⟩
    · rw [collapse_of_ne slash, isChain_notMarked_cons, beginsName_collapse]
      exact ⟨unmarked, inductionHypothesis others false⟩

/-- Without two slashes in a row there is nothing to leave out. -/
theorem collapse_of_isChain {characters : List Char} :
    (('/' :: characters).IsChain NotSlashes → collapse true characters = characters) ∧
      (characters.IsChain NotSlashes → collapse false characters = characters) := by
  induction characters with
  | nil => exact ⟨fun _ => rfl, fun _ => rfl⟩
  | cons character rest inductionHypothesis =>
    obtain ⟨behindSlash, behindOther⟩ := inductionHypothesis
    have behind : (character :: rest).IsChain NotSlashes → character ≠ '/' →
        ∀ afterSlash, collapse afterSlash (character :: rest) = character :: rest := by
      intro chain other afterSlash
      rw [collapse_of_ne other, behindOther (List.isChain_cons.mp chain).2]
    constructor
    · intro chain
      obtain ⟨apart, others⟩ := List.isChain_cons_cons.mp chain
      exact behind others (fun slash => apart ⟨rfl, slash⟩) true
    · intro chain
      by_cases slash : character = '/'
      · subst slash
        rw [collapse_slash_of_false, behindSlash chain]
      · exact behind chain slash false

theorem collapse_append {character : Char} (other : character ≠ '/') (afterSlash : Bool)
    (front rest : List Char) :
    collapse afterSlash (front ++ character :: rest) =
      collapse afterSlash front ++ character :: collapse false rest := by
  induction front generalizing afterSlash with
  | nil => exact collapse_of_ne other afterSlash rest
  | cons first others inductionHypothesis =>
    by_cases slash : first = '/'
    · subst slash
      cases afterSlash <;> simp only [List.cons_append, collapse, if_true, Bool.false_eq_true,
        if_false, inductionHypothesis]
    · rw [List.cons_append, collapse_of_ne slash, collapse_of_ne slash, inductionHypothesis,
        List.cons_append]

theorem collapse_concat {last : Char} (other : last ≠ '/') (afterSlash : Bool)
    (front : List Char) :
    collapse afterSlash (front ++ [last]) = collapse afterSlash front ++ [last] :=
  collapse_append other afterSlash front []

theorem collapse_slashes {slashes : List Char} (only : ∀ character ∈ slashes, character = '/') :
    collapse true slashes = [] ∧
      (collapse false slashes = [] ∨ collapse false slashes = ['/']) := by
  induction slashes with
  | nil => exact ⟨rfl, Or.inl rfl⟩
  | cons character rest inductionHypothesis =>
    obtain ⟨rfl, others⟩ := List.forall_mem_cons.mp only
    obtain ⟨nothing, -⟩ := inductionHypothesis others
    rw [collapse_slash_of_true, collapse_slash_of_false, nothing]
    exact ⟨rfl, Or.inr rfl⟩

/-! ## The last slash -/

/-- Either a last slash is dropped that has something in front of it, or nothing is. -/
theorem dropLastSlash_cases (characters : List Char) :
    (∃ core, core ≠ [] ∧ characters = core ++ ['/'] ∧ dropLastSlash characters = core) ∨
      ((characters.getLast? = some '/' → characters = ['/']) ∧
        dropLastSlash characters = characters) := by
  rcases characters.eq_nil_or_concat' with rfl | ⟨core, last, rfl⟩
  · exact Or.inr ⟨fun impossible => (nomatch impossible), rfl⟩
  · by_cases slash : last = '/'
    · subst slash
      cases core with
      | nil => exact Or.inr ⟨fun _ => rfl, rfl⟩
      | cons first others =>
        have ends : (decide (1 < (first :: others ++ ['/']).length) &&
            (first :: others ++ ['/']).getLast? == some '/') = true := by
          rw [List.getLast?_concat]
          simp
        refine Or.inl ⟨first :: others, List.cons_ne_nil _ _, rfl, ?_⟩
        rw [dropLastSlash, if_pos ends, List.dropLast_concat]
    · exact Or.inr ⟨by simp [slash], by simp [dropLastSlash, slash]⟩

theorem dropLastSlash_of_ends {characters : List Char}
    (ends : characters.getLast? = some '/' → characters = ['/']) :
    dropLastSlash characters = characters := by
  rcases dropLastSlash_cases characters with ⟨core, present, rfl, -⟩ | ⟨-, same⟩
  · have single := ends List.getLast?_concat
    exact absurd (List.append_left_eq_self.mp single) present
  · exact same

theorem dropLastSlash_concat {core : List Char} (present : core ≠ []) :
    dropLastSlash (core ++ ['/']) = core := by
  rcases dropLastSlash_cases (core ++ ['/']) with ⟨other, -, same, dropped⟩ | ⟨ends, -⟩
  · rw [dropped]
    exact (List.append_cancel_right same).symm
  · exact absurd (List.append_left_eq_self.mp (ends List.getLast?_concat)) present

theorem length_dropLastSlash_le (characters : List Char) :
    (dropLastSlash characters).length ≤ characters.length := by
  rcases dropLastSlash_cases characters with ⟨core, -, whole, dropped⟩ | ⟨-, same⟩
  · rw [dropped, whole, List.length_append]
    exact Nat.le_add_right _ _
  · rw [same]

/-! ## Normal paths -/

/-- Every text is brought into the normal form. -/
theorem canonical_form (trimmed : List Char) : Canonical (form trimmed) := by
  have noSlashes := (isChain_notSlashes_collapse (brace false trimmed)).1
  have noMarks : ('/' :: collapse true (brace false trimmed)).IsChain NotMarked :=
    isChain_notMarked_cons.mpr
      ⟨rfl, isChain_notMarked_collapse (isChain_brace false trimmed) true⟩
  unfold form
  rcases dropLastSlash_cases ('/' :: collapse true (brace false trimmed)) with
    ⟨core, present, whole, dropped⟩ | ⟨ends, same⟩
  · rw [whole] at noSlashes noMarks
    rw [dropped]
    refine ⟨?_, noSlashes.left_of_append, noMarks.left_of_append, fun last => ?_⟩
    · cases core with
      | nil => exact absurd rfl present
      | cons first others => exact congrArg some (List.cons.inj whole).1.symm
    · exact absurd ⟨rfl, rfl⟩ ((List.isChain_append.mp noSlashes).2.2 '/' last '/' rfl)
  · rw [same]
    exact ⟨rfl, noSlashes, noMarks, ends⟩

theorem canonical_normalize (path : String) : Canonical (normalize path).toList := by
  rw [toList_normalize]
  exact canonical_form _

/-- Of a path that differs from a normal one at most at its end, only a last slash is dropped. -/
theorem form_slash_cons {rest : List Char} (noSlashes : ('/' :: rest).IsChain NotSlashes)
    (noMarks : ('/' :: rest).IsChain NotMarked) :
    form ('/' :: rest) = dropLastSlash ('/' :: rest) := by
  rw [form, brace_of_isChain noMarks, collapse_slash_of_true, collapse_of_isChain.1 noSlashes]

/-- Normalizing once more trims the end, and drops a slash that then stands there. -/
theorem form_trim_of_canonical {rest : List Char} (canonical : Canonical ('/' :: rest)) :
    form (Text.trimList ('/' :: rest)) = dropLastSlash ('/' :: Text.trimBack rest) := by
  have trimmed : Text.trimList ('/' :: rest) = '/' :: Text.trimBack rest :=
    Text.trimList_around (by decide) [] rest
  obtain ⟨back, -, whole⟩ := Text.exists_trimBack rest
  have split : '/' :: rest = '/' :: Text.trimBack rest ++ back := congrArg ('/' :: ·) whole
  rw [trimmed, form_slash_cons (split ▸ canonical.noSlashes).left_of_append
    (split ▸ canonical.noMarks).left_of_append]

/-- A normal path is normalized to itself exactly when it does not end with white space. -/
theorem form_trim_eq_self_iff {characters : List Char} (canonical : Canonical characters) :
    form (Text.trimList characters) = characters ↔
      ∀ last ∈ characters.getLast?, Text.isBlank last = false := by
  obtain ⟨rest, rfl⟩ := List.head?_eq_some_iff.mp canonical.begins
  have slash : Text.isBlank '/' = false := by decide
  have sameEnd : (∀ last ∈ ('/' :: rest).getLast?, Text.isBlank last = false) ↔
      ∀ last ∈ rest.getLast?, Text.isBlank last = false := by
    cases rest with
    | nil => simp [slash]
    | cons next others => rw [List.getLast?_cons_of_ne_nil (List.cons_ne_nil _ _)]
  rw [form_trim_of_canonical canonical, sameEnd, ← Text.trimBack_eq_self_iff]
  constructor
  · intro same
    obtain ⟨back, -, whole⟩ := Text.exists_trimBack rest
    have shorter := length_dropLastSlash_le ('/' :: Text.trimBack rest)
    have lengths := congrArg List.length whole
    rw [same, List.length_cons, List.length_cons] at shorter
    rw [List.length_append] at lengths
    have nothing : back = [] := List.eq_nil_of_length_eq_zero (by omega)
    rw [nothing, List.append_nil] at whole
    exact whole.symm
  · intro same
    rw [same]
    exact dropLastSlash_of_ends canonical.ends

/-! ## What normalizing keeps -/

/-- The characters that normalizing may write, exchange or leave out. -/
def isMark (character : Char) : Bool :=
  character == '/' || character == ':' || character == '\x7b' || character == '\x7d'

/-- What is left of a text without its marks, in the same order. -/
def unmarked (characters : List Char) : List Char :=
  characters.filter fun character => !isMark character

theorem unmarked_cons_of_mark {mark : Char} (isOne : isMark mark = true)
    (rest : List Char) : unmarked (mark :: rest) = unmarked rest := by
  rw [unmarked, List.filter_cons_of_neg (by simp [isOne]), unmarked]

theorem unmarked_cons_congr (character : Char) {rest others : List Char}
    (same : unmarked rest = unmarked others) :
    unmarked (character :: rest) = unmarked (character :: others) := by
  unfold unmarked at same ⊢
  rw [List.filter_cons, List.filter_cons, same]

/-- Braces take the place of colons or are added. -/
theorem unmarked_brace (inside : Bool) (characters : List Char) :
    unmarked (brace inside characters) = unmarked characters := by
  induction characters generalizing inside with
  | nil => cases inside <;> rfl
  | cons character rest inductionHypothesis =>
    have outside : unmarked (brace false (character :: rest)) = unmarked (character :: rest) := by
      rw [brace_outside]
      split
      · next marked =>
        rw [Bool.and_eq_true, beq_iff_eq] at marked
        rw [marked.1, unmarked_cons_of_mark (by decide), unmarked_cons_of_mark (by decide),
          inductionHypothesis]
      · exact unmarked_cons_congr character (inductionHypothesis _)
    cases inside with
    | false => exact outside
    | true =>
      cases named : isNameCharacter character with
      | true =>
        rw [brace_named named]
        exact unmarked_cons_congr character (inductionHypothesis true)
      | false => rw [brace_closed named, unmarked_cons_of_mark (by decide), outside]

theorem unmarked_collapse (afterSlash : Bool) (characters : List Char) :
    unmarked (collapse afterSlash characters) = unmarked characters := by
  induction characters generalizing afterSlash with
  | nil => rfl
  | cons character rest inductionHypothesis =>
    by_cases slash : character = '/'
    · subst slash
      rw [unmarked_cons_of_mark (by decide), ← inductionHypothesis true]
      cases afterSlash with
      | true => rfl
      | false => rw [collapse_slash_of_false, unmarked_cons_of_mark (by decide)]
    · rw [collapse_of_ne slash]
      exact unmarked_cons_congr character (inductionHypothesis false)

theorem unmarked_dropLastSlash (characters : List Char) :
    unmarked (dropLastSlash characters) = unmarked characters := by
  rcases dropLastSlash_cases characters with ⟨core, -, rfl, dropped⟩ | ⟨-, same⟩
  · rw [dropped, unmarked, unmarked, List.filter_append]
    exact (List.append_nil _).symm
  · rw [same]

theorem unmarked_form (trimmed : List Char) : unmarked (form trimmed) = unmarked trimmed := by
  rw [form, unmarked_dropLastSlash, unmarked_cons_of_mark (by decide), unmarked_collapse,
    unmarked_brace]

/-- A normal path has the normal form, and of the trimmed text nothing but marks is exchanged
or lost. -/
theorem normalize_canonical_unmarked (path : String) :
    Canonical (normalize path).toList ∧
      unmarked (normalize path).toList = unmarked (Text.trim path).toList := by
  refine ⟨canonical_normalize path, ?_⟩
  rw [toList_normalize, unmarked_form, Text.trim, String.toList_ofList]

/-! ## White space at the end -/

/-- White space stands at the end, or in front of slashes at the end. -/
def EndsOnBlank (characters : List Char) : Prop :=
  ∃ front blank slashes, characters = front ++ blank :: slashes ∧
    Text.isBlank blank = true ∧ ∀ character ∈ slashes, character = '/'

/-- The characters of names lie between the digits and the small letters. -/
theorem range_of_isNameCharacter {character : Char} (named : isNameCharacter character = true) :
    48 ≤ character.toNat ∧ character.toNat ≤ 122 := by
  have ranges : (((decide (character.val ≥ 'A'.val ∧ character.val ≤ 'Z'.val) ||
      (decide (character.val ≥ 'a'.val) && decide (character.val ≤ 'z'.val))) ||
      (decide (character.val ≥ '0'.val) && decide (character.val ≤ '9'.val))) ||
      character == '_') = true := named
  simp only [Bool.or_eq_true, beq_iff_eq, Bool.and_eq_true, decide_eq_true_iff, ge_iff_le,
    UInt32.le_iff_toNat_le, Char.toNat_val] at ranges
  have bounds : 'A'.toNat = 65 ∧ 'Z'.toNat = 90 ∧ 'a'.toNat = 97 ∧ 'z'.toNat = 122 ∧
    '0'.toNat = 48 ∧ '9'.toNat = 57 := by decide
  rcases ranges with letter | rfl
  · omega
  · decide

/-- White space is in no name and is none of the marks of a path. -/
theorem isNameCharacter_of_isBlank {character : Char} (blank : Text.isBlank character = true) :
    isNameCharacter character = false := by
  rw [Bool.eq_false_iff]
  intro named
  have range := range_of_isNameCharacter named
  simp only [Text.isBlank, Text.blankRanges, List.any_cons, List.any_nil, Bool.or_eq_true,
    Bool.and_eq_true, decide_eq_true_iff, Bool.false_eq_true, or_false] at blank
  omega

theorem ne_of_isBlank {character : Char} (blank : Text.isBlank character = true) :
    character ≠ '/' ∧ character ≠ ':' ∧ character ≠ '\x7d' := by
  refine ⟨?_, ?_, ?_⟩ <;>
  · rintro rfl
    cases blank

theorem exists_slashes (characters : List Char) :
    ∃ core slashes, characters = core ++ slashes ∧ (∀ character ∈ slashes, character = '/') ∧
      core.getLast? ≠ some '/' := by
  induction characters using List.reverseRecOn with
  | nil => exact ⟨[], [], rfl, List.forall_mem_nil _, by simp⟩
  | append_singleton front last inductionHypothesis =>
    by_cases slash : last = '/'
    · subst slash
      obtain ⟨core, slashes, rfl, only, ends⟩ := inductionHypothesis
      refine ⟨core, slashes ++ ['/'], List.append_assoc _ _ _, ?_, ends⟩
      exact List.forall_mem_append.mpr ⟨only, List.forall_mem_singleton.mpr rfl⟩
    · exact ⟨front ++ [last], [], (List.append_nil _).symm, List.forall_mem_nil _, by simp [slash]⟩

/-- Of slashes alone one is left. -/
theorem form_slashes {slashes : List Char} (only : ∀ character ∈ slashes, character = '/') :
    form slashes = ['/'] := by
  rw [form, brace_slashes only, (collapse_slashes only).1]
  rfl

/-- Slashes at the end leave no trace. -/
theorem form_append_slashes {core slashes : List Char}
    (only : ∀ character ∈ slashes, character = '/') {last : Char} (other : last ≠ '/')
    (ends : (brace false core).getLast? = some last) :
    form (core ++ slashes) = '/' :: collapse true (brace false core) := by
  obtain ⟨front, written⟩ := List.getLast?_eq_some_iff.mp ends
  have plain : collapse true (brace false core) = collapse true front ++ [last] := by
    rw [written, collapse_concat other]
  have whole : collapse true (brace false (core ++ slashes)) =
      collapse true front ++ last :: collapse false slashes := by
    rw [brace_append_slashes core only, written, List.append_assoc, List.singleton_append,
      collapse_append other]
  rw [form, whole, plain]
  rcases (collapse_slashes only).2 with nothing | single
  · rw [nothing]
    refine dropLastSlash_of_ends fun slash => ?_
    rw [← List.cons_append, List.getLast?_concat] at slash
    exact absurd (Option.some.inj slash) other
  · rw [single, List.append_cons, ← List.cons_append]
    exact dropLastSlash_concat (List.cons_ne_nil _ _)

theorem getLast?_form {core slashes : List Char}
    (only : ∀ character ∈ slashes, character = '/') {last : Char} (other : last ≠ '/')
    (ends : (brace false core).getLast? = some last) :
    (form (core ++ slashes)).getLast? = some last := by
  obtain ⟨front, written⟩ := List.getLast?_eq_some_iff.mp ends
  rw [form_append_slashes only other ends, written, collapse_concat other, ← List.cons_append,
    List.getLast?_concat]

/-- The form of a text ends with white space when the text does, up to slashes. -/
theorem getLast?_form_blank_iff (trimmed : List Char) :
    (∀ last ∈ (form trimmed).getLast?, Text.isBlank last = false) ↔ ¬EndsOnBlank trimmed := by
  constructor
  · rintro visible ⟨front, blank, slashes, rfl, ofBlank, only⟩
    have written : (brace false (front ++ [blank])).getLast? = some blank := by
      obtain ⟨-, noColon, -⟩ := ne_of_isBlank ofBlank
      rw [brace_append (isNameCharacter_of_isBlank ofBlank), brace_outside,
        beq_eq_false_iff_ne.mpr noColon]
      exact List.getLast?_concat
    have ends := getLast?_form only (ne_of_isBlank ofBlank).1 written
    rw [List.append_assoc, List.singleton_append] at ends
    have seen := visible blank ends
    rw [ofBlank] at seen
    cases seen
  · intro noBlank last ends
    rw [Bool.eq_false_iff]
    intro ofBlank
    obtain ⟨noSlash, -, noBrace⟩ := ne_of_isBlank ofBlank
    apply noBlank
    obtain ⟨core, slashes, rfl, only, noSlashes⟩ := exists_slashes trimmed
    cases found : (brace false core).getLast? with
    | none =>
      cases core with
      | nil =>
        rw [List.nil_append, form_slashes only] at ends
        exact absurd (Option.some.inj ends).symm noSlash
      | cons first others =>
        exact absurd (List.getLast?_eq_none_iff.mp found) (brace_cons_ne_nil false first others)
    | some written =>
      have other : written ≠ '/' := by
        rintro rfl
        exact noSlashes (getLast?_of_brace (by decide) found)
      rw [getLast?_form only other found] at ends
      obtain rfl := Option.some.inj ends
      obtain ⟨front, rfl⟩ := List.getLast?_eq_some_iff.mp (getLast?_of_brace noBrace found)
      exact ⟨front, written, slashes, List.append_assoc _ _ _, ofBlank, only⟩

/-- A path is normal after one normalization exactly when, once it is trimmed, no white
space stands in front of the slashes at its end. -/
theorem normalize_idempotent_iff (path : String) :
    normalize (normalize path) = normalize path ↔
      ¬EndsOnBlank (Text.trimList path.toList) := by
  rw [← String.toList_inj, toList_normalize (normalize path),
    form_trim_eq_self_iff (canonical_normalize path), toList_normalize path]
  exact getLast?_form_blank_iff _

/-- The slash that is dropped has kept a blank from being trimmed. -/
theorem normalize_blank_segment : normalize (normalize "a /") ≠ normalize "a /" := by decide

end Path
end RouteDocs
