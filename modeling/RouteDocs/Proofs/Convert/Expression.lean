import Mathlib.Computability.Language
import RouteDocs.Convert.Pattern
import RouteDocs.Proofs.Decimal.Written

namespace RouteDocs

/-!
# The language of a pattern

A pattern describes a set of texts, its language, and is shown as a regular expression.
What a regular expression describes is said here without the pattern: `Reads` reads an
expression from its beginning to its end, as its syntax lays down.  A count mark belongs
to the one unit in front of it, a bar divides everything between the parentheses around
it, and a backslash makes any special character stand for itself.

An expression is read in one way at most (`Reads.unique`), and the expression of a
pattern is read as the language of that pattern (`Pattern.reads_spelling`).  So the
spelling loses nothing and adds nothing, and what a document shows can be understood
without the pattern behind it.

Only what patterns are made of is read here: characters, digits, groups, alternatives and
count marks.  An expression with anything else in it is not read at all.
-/

namespace Pattern

/-- The texts of a language several times in a row, at least `least` and, where said, at
most `most` times. -/
def times (language : Language Char) (least : Nat) (most : Option Nat) : Language Char :=
  { text | ∃ count, least ≤ count ∧ (∀ bound ∈ most, count ≤ bound) ∧ text ∈ language ^ count }

def digits : Language Char :=
  { text | ∃ character : Char, character.isDigit = true ∧ text = [character] }

/-- The texts that a pattern describes. -/
def language (pattern : Pattern) : Language Char :=
  match pattern with
  | .character symbol => {[symbol]}
  | .digit => digits
  | .exactly text => {text}
  | .sequence first second => first.language * second.language
  | .either first second => first.language + second.language
  | .repeated body least most => times body.language least most

end Pattern

namespace Expression

/-- The characters that stand for themselves only behind a backslash. -/
def isOperator (character : Char) : Bool :=
  "\\.+*?()|[]\x7b\x7d^$".toList.contains character

/-- Whether a text begins with a count mark. -/
def beginsCount (text : List Char) : Bool :=
  match text with
  | [] => false
  | character :: _ =>
    character == '?' || character == '*' || character == '+' || character == '\x7b'

/-- Whether a sequence ends here: at a bar, at the end of its group or of the whole. -/
def endsSequence (text : List Char) : Bool :=
  match text with
  | [] => true
  | character :: _ => character == '|' || character == ')' || character == '$'

/-- A count mark at the beginning of a text, with the text behind it. -/
inductive Counts : List Char → Nat → Option Nat → List Char → Prop where
  | perhaps (rest : List Char) : Counts ('?' :: rest) 0 (some 1) rest
  | anyTimes (rest : List Char) : Counts ('*' :: rest) 0 none rest
  | atLeastOnce (rest : List Char) : Counts ('+' :: rest) 1 none rest
  | exactly {text rest : List Char} (count : Nat)
      (written : text = Nat.toDigits 10 count ++ '\x7d' :: rest) :
      Counts ('\x7b' :: text) count (some count) rest
  | atLeast {text rest : List Char} (least : Nat)
      (written : text = Nat.toDigits 10 least ++ ',' :: '\x7d' :: rest) :
      Counts ('\x7b' :: text) least none rest
  | between {text rest : List Char} (least most : Nat) (ordered : least ≤ most)
      (written : text = Nat.toDigits 10 least ++ ',' :: (Nat.toDigits 10 most ++ '\x7d' :: rest)) :
      Counts ('\x7b' :: text) least (some most) rest

/-- The levels of the syntax, from the innermost. -/
inductive Level where
  | unit
  | counted
  | sequence
  | choice

/-- What a part of an expression describes.  The part stands at the beginning of the
first text, and the second is what stands behind it. -/
inductive Reads : Level → List Char → Language Char → List Char → Prop where
  | plain {symbol : Char} {rest : List Char} (ordinary : isOperator symbol = false) :
      Reads .unit (symbol :: rest) {[symbol]} rest
  | escaped {symbol : Char} {rest : List Char} (special : Pattern.isSpecial symbol = true) :
      Reads .unit ('\\' :: symbol :: rest) {[symbol]} rest
  | digit {rest : List Char} :
      Reads .unit ('[' :: '0' :: '-' :: '9' :: ']' :: rest) Pattern.digits rest
  | group {text rest : List Char} {language : Language Char}
      (inside : Reads .choice text language (')' :: rest)) :
      Reads .unit ('(' :: '?' :: ':' :: text) language rest
  -- A count mark is taken wherever one follows, so it is not left for what is read next.
  | once {text rest : List Char} {language : Language Char}
      (single : Reads .unit text language rest) (uncounted : beginsCount rest = false) :
      Reads .counted text language rest
  | counted {text middle rest : List Char} {language : Language Char} {least : Nat}
      {most : Option Nat} (single : Reads .unit text language middle)
      (mark : Counts middle least most rest) :
      Reads .counted text (Pattern.times language least most) rest
  -- A sequence goes on as far as it can, and may have nothing in it.
  | done {rest : List Char} (ends : endsSequence rest = true) : Reads .sequence rest 1 rest
  | next {text middle rest : List Char} {first others : Language Char}
      (front : Reads .counted text first middle) (behind : Reads .sequence middle others rest) :
      Reads .sequence text (first * others) rest
  | only {text rest : List Char} {language : Language Char}
      (whole : Reads .sequence text language rest) (last : rest.head? ≠ some '|') :
      Reads .choice text language rest
  | either {text middle rest : List Char} {first others : Language Char}
      (front : Reads .sequence text first ('|' :: middle))
      (behind : Reads .choice middle others rest) :
      Reads .choice text (first + others) rest

/-- An expression for a text as a whole, with the texts that it describes. -/
def Describes (expression : String) (language : Language Char) : Prop :=
  ∃ body, expression.toList = '^' :: body ∧ Reads .sequence body language ['$']

/-! ## An expression is read in one way -/

variable {text rest otherRest : List Char}

theorem Counts.beginsCount {least : Nat} {most : Option Nat}
    (counts : Counts text least most rest) : beginsCount text = true := by
  cases counts <;> rfl

theorem Counts.unique {least otherLeast : Nat} {most otherMost : Option Nat}
    (counts : Counts text least most rest) (other : Counts text otherLeast otherMost otherRest) :
    least = otherLeast ∧ most = otherMost ∧ rest = otherRest := by
  cases counts with
  | perhaps => cases other with | perhaps => exact ⟨rfl, rfl, rfl⟩
  | anyTimes => cases other with | anyTimes => exact ⟨rfl, rfl, rfl⟩
  | atLeastOnce => cases other with | atLeastOnce => exact ⟨rfl, rfl, rfl⟩
  | exactly count written =>
    cases other with
    | exactly otherCount same =>
      obtain ⟨rfl, -, rfl⟩ := Decimal.toDigits_append_inj rfl rfl (written.symm.trans same)
      exact ⟨rfl, rfl, rfl⟩
    | atLeast otherLeast same =>
      exact absurd (Decimal.toDigits_append_inj rfl rfl (written.symm.trans same)).2.1 (by decide)
    | between otherLeast otherMost _ same =>
      exact absurd (Decimal.toDigits_append_inj rfl rfl (written.symm.trans same)).2.1 (by decide)
  | atLeast least written =>
    cases other with
    | exactly otherCount same =>
      exact absurd (Decimal.toDigits_append_inj rfl rfl (written.symm.trans same)).2.1 (by decide)
    | atLeast otherLeast same =>
      obtain ⟨rfl, -, behind⟩ := Decimal.toDigits_append_inj rfl rfl (written.symm.trans same)
      exact ⟨rfl, rfl, (List.cons.inj behind).2⟩
    | between otherLeast otherMost _ same =>
      obtain ⟨-, -, behind⟩ := Decimal.toDigits_append_inj rfl rfl (written.symm.trans same)
      exact absurd behind.symm (Decimal.toDigits_append_ne rfl _)
  | between least most _ written =>
    cases other with
    | exactly otherCount same =>
      exact absurd (Decimal.toDigits_append_inj rfl rfl (written.symm.trans same)).2.1 (by decide)
    | atLeast otherLeast same =>
      obtain ⟨-, -, behind⟩ := Decimal.toDigits_append_inj rfl rfl (written.symm.trans same)
      exact absurd behind (Decimal.toDigits_append_ne rfl _)
    | between otherLeast otherMost _ same =>
      obtain ⟨rfl, -, behind⟩ := Decimal.toDigits_append_inj rfl rfl (written.symm.trans same)
      obtain ⟨rfl, -, rfl⟩ := Decimal.toDigits_append_inj rfl rfl behind
      exact ⟨rfl, rfl, rfl⟩

/-- A unit begins neither with the end of a sequence nor with a count mark: these are
operators, and none of them begins an escape or a group. -/
theorem Reads.unit_starts {language : Language Char} (reads : Reads .unit text language rest) :
    endsSequence text = false ∧ beginsCount text = false := by
  cases reads with
  | @plain symbol _ ordinary =>
    have different : ∀ operator, isOperator operator = true → (symbol == operator) = false := by
      intro operator special
      rw [beq_eq_false_iff_ne]
      rintro rfl
      rw [ordinary] at special
      cases special
    simp only [endsSequence, beginsCount, different '|' rfl, different ')' rfl,
      different '$' rfl, different '?' rfl, different '*' rfl, different '+' rfl,
      different '\x7b' rfl, Bool.or_self, and_self]
  | escaped => exact ⟨rfl, rfl⟩
  | digit => exact ⟨rfl, rfl⟩
  | group => exact ⟨rfl, rfl⟩

theorem Reads.counted_starts {language : Language Char}
    (reads : Reads .counted text language rest) :
    endsSequence text = false ∧ beginsCount text = false := by
  cases reads with
  | once single => exact single.unit_starts
  | counted single => exact single.unit_starts

/-- There is no choice in reading an expression. -/
theorem Reads.unique {level : Level} {language otherLanguage : Language Char}
    (reads : Reads level text language rest) (other : Reads level text otherLanguage otherRest) :
    language = otherLanguage ∧ rest = otherRest := by
  induction reads generalizing otherLanguage otherRest with
  | plain ordinary =>
    cases other with
    | plain => exact ⟨rfl, rfl⟩
    | escaped => cases ordinary
    | digit => cases ordinary
    | group => cases ordinary
  | escaped =>
    cases other with
    | plain ordinary => cases ordinary
    | escaped => exact ⟨rfl, rfl⟩
  | digit =>
    cases other with
    | plain ordinary => cases ordinary
    | digit => exact ⟨rfl, rfl⟩
  | group _ inside =>
    cases other with
    | plain ordinary => cases ordinary
    | group otherInside =>
      obtain ⟨rfl, rests⟩ := inside otherInside
      exact ⟨rfl, (List.cons.inj rests).2⟩
  | once _ uncounted single =>
    cases other with
    | once otherSingle => exact single otherSingle
    | counted otherSingle mark =>
      obtain ⟨-, rfl⟩ := single otherSingle
      rw [mark.beginsCount] at uncounted
      cases uncounted
  | counted _ mark single =>
    cases other with
    | once otherSingle uncounted =>
      obtain ⟨-, rfl⟩ := single otherSingle
      rw [mark.beginsCount] at uncounted
      cases uncounted
    | counted otherSingle otherMark =>
      obtain ⟨rfl, rfl⟩ := single otherSingle
      obtain ⟨rfl, rfl, rfl⟩ := mark.unique otherMark
      exact ⟨rfl, rfl⟩
  | done ends =>
    cases other with
    | done => exact ⟨rfl, rfl⟩
    | next front =>
      rw [front.counted_starts.1] at ends
      cases ends
  | next reads _ front behind =>
    cases other with
    | done ends =>
      rw [reads.counted_starts.1] at ends
      cases ends
    | next otherFront otherBehind =>
      obtain ⟨rfl, rfl⟩ := front otherFront
      obtain ⟨rfl, rfl⟩ := behind otherBehind
      exact ⟨rfl, rfl⟩
  | only _ last whole =>
    cases other with
    | only otherWhole => exact whole otherWhole
    | either otherFront =>
      obtain ⟨-, rfl⟩ := whole otherFront
      exact absurd rfl last
  | either _ _ front behind =>
    cases other with
    | only otherWhole last =>
      obtain ⟨-, rfl⟩ := front otherWhole
      exact absurd rfl last
    | either otherFront otherBehind =>
      obtain ⟨rfl, rests⟩ := front otherFront
      obtain rfl := (List.cons.inj rests).2
      obtain ⟨rfl, rfl⟩ := behind otherBehind
      exact ⟨rfl, rfl⟩

/-! ## The expression of a pattern -/

variable {final : List Char} {others : Language Char}

theorem beginsCount_of_endsSequence (ends : endsSequence text = true) :
    beginsCount text = false := by
  cases text with
  | nil => rfl
  | cons character rest =>
    rw [endsSequence, Bool.or_eq_true, Bool.or_eq_true, beq_iff_eq, beq_iff_eq, beq_iff_eq] at ends
    rcases ends with (rfl | rfl) | rfl <;> rfl

/-- No sequence begins with a count mark, so what stands in front of one is not counted. -/
theorem Reads.uncounted (reads : Reads .sequence text others final) : beginsCount text = false := by
  cases reads with
  | done ends => exact beginsCount_of_endsSequence ends
  | next front => exact front.counted_starts.2

theorem Reads.next_unit {language : Language Char} (single : Reads .unit text language rest)
    (behind : Reads .sequence rest others final) :
    Reads .sequence text (language * others) final :=
  .next (.once single behind.uncounted) behind

theorem isSpecial_of_isOperator {character : Char} (operator : isOperator character = true) :
    Pattern.isSpecial character = true := by
  have every : ∀ symbol ∈ "\\.+*?()|[]\x7b\x7d^$".toList, Pattern.isSpecial symbol = true :=
    List.all_eq_true.mp (by decide)
  rw [isOperator, List.contains_iff_mem] at operator
  exact every character operator

theorem reads_escaped (symbol : Char) (rest : List Char) :
    Reads .unit ((if Pattern.isSpecial symbol then ['\\', symbol] else [symbol]) ++ rest)
      {[symbol]} rest := by
  split
  · next special => exact .escaped special
  · next ordinary =>
    refine .plain ?_
    rw [Bool.eq_false_iff]
    exact fun operator => ordinary (isSpecial_of_isOperator operator)

theorem singleton_cons (symbol : Char) (symbols : List Char) :
    ({symbol :: symbols} : Language Char) = {[symbol]} * {symbols} := by
  have whole : Set.image2 (fun front back => front ++ back) {[symbol]} {symbols} =
      {[symbol] ++ symbols} := Set.image2_singleton
  exact whole.symm

/-- A free text describes itself and nothing else. -/
theorem reads_escape (symbols : List Char) (behind : Reads .sequence rest others final) :
    Reads .sequence (Pattern.escape symbols ++ rest) ({symbols} * others) final := by
  induction symbols with
  | nil =>
    have nothing : ({[]} : Language Char) * others = others := one_mul others
    rw [nothing]
    exact behind
  | cons symbol symbols inductionHypothesis =>
    rw [singleton_cons, mul_assoc, Pattern.escape, List.flatMap_cons, List.append_assoc]
    exact (reads_escaped symbol _).next_unit inductionHypothesis

theorem counts_countMark {least : Nat} {most : Option Nat}
    (ordered : ∀ bound ∈ most, least ≤ bound) (rest : List Char) :
    Counts ((Pattern.countMark least most).toList ++ rest) least most rest := by
  have numeral : ∀ number : Nat, (toString number).toList = Nat.toDigits 10 number :=
    fun _ => Nat.toList_repr
  unfold Pattern.countMark
  split
  · exact .perhaps rest
  · exact .anyTimes rest
  · exact .atLeastOnce rest
  · simp only [String.toList_append, numeral, List.append_assoc]
    exact .atLeast _ rfl
  · next bound _ =>
    split
    · next same =>
      obtain rfl := same
      simp only [String.toList_append, numeral, List.append_assoc]
      exact .exactly _ rfl
    · simp only [String.toList_append, numeral, List.append_assoc]
      exact .between _ bound (ordered bound rfl) rfl

end Expression

namespace Pattern

/-- Whether every character that is no free text stands for itself, and every count has
its bounds in order. -/
def Regular (pattern : Pattern) : Prop :=
  match pattern with
  | .character symbol => Expression.isOperator symbol = false
  | .digit => True
  | .exactly _ => True
  | .sequence first second => first.Regular ∧ second.Regular
  | .either first second => first.Regular ∧ second.Regular
  | .repeated body least most => body.Regular ∧ ∀ bound ∈ most, least ≤ bound

open Expression

theorem toList_grouped_append (body : String) (rest : List Char) :
    (grouped body).toList ++ rest = '(' :: '?' :: ':' :: (body.toList ++ ')' :: rest) := by
  simp [grouped]

/-- What a count is attached to is one unit, with a group around it where it is longer. -/
theorem reads_unit {body : Pattern} (regular : body.Regular)
    (inside : ∀ rest, Reads .sequence (body.spelling.toList ++ ')' :: rest) body.language
      (')' :: rest)) (rest : List Char) :
    Reads .unit
      ((if body.isUnit then body.spelling else grouped body.spelling).toList ++ rest)
      body.language rest := by
  split
  · next unit =>
    cases body with
    | character symbol =>
      rw [spelling, String.toList_ofList]
      exact .plain regular
    | digit => exact .digit
    | _ => cases unit
  · rw [toList_grouped_append]
    exact .group (.only (inside rest) (by simp))

/-- The expression of a pattern describes the texts that the pattern describes, whatever
is to be read behind it. -/
theorem reads_spelling {pattern : Pattern} (regular : pattern.Regular) {rest final : List Char}
    {others : Language Char} (behind : Reads .sequence rest others final) :
    Reads .sequence (pattern.spelling.toList ++ rest) (pattern.language * others) final := by
  induction pattern generalizing rest others final with
  | character symbol =>
    rw [spelling, String.toList_ofList]
    exact (Reads.plain regular).next_unit behind
  | digit => exact Reads.digit.next_unit behind
  | exactly text =>
    rw [spelling, String.toList_ofList]
    exact reads_escape text behind
  | sequence first second ofFirst ofSecond =>
    rw [spelling, String.toList_append, List.append_assoc, language, mul_assoc]
    exact ofFirst regular.1 (ofSecond regular.2 behind)
  | either first second ofFirst ofSecond =>
    have back : Reads .sequence (second.spelling.toList ++ ')' :: rest) (second.language * 1)
        (')' :: rest) := ofSecond regular.2 (.done rfl)
    have front : Reads .sequence
        (first.spelling.toList ++ '|' :: (second.spelling.toList ++ ')' :: rest))
        (first.language * 1) ('|' :: (second.spelling.toList ++ ')' :: rest)) :=
      ofFirst regular.1 (.done rfl)
    rw [mul_one] at front back
    rw [spelling, toList_grouped_append]
    simp only [String.toList_append, List.append_assoc]
    exact (Reads.group (.either front (.only back (by simp)))).next_unit behind
  | repeated body least most ofBody =>
    have inside : ∀ middle, Reads .sequence (body.spelling.toList ++ ')' :: middle) body.language
        (')' :: middle) := by
      intro middle
      rw [← mul_one body.language]
      exact ofBody regular.1 (.done rfl)
    rw [spelling, String.toList_append, List.append_assoc]
    exact .next (.counted (reads_unit regular.1 inside _) (counts_countMark regular.2 rest)) behind

/-- The whole expression of a pattern describes the texts that the pattern describes, and
can be read in no other way. -/
theorem describes_anchored_iff {pattern : Pattern} (regular : pattern.Regular)
    {language : Language Char} :
    Describes pattern.anchored language ↔ language = pattern.language := by
  have whole : pattern.anchored.toList = '^' :: (pattern.spelling.toList ++ ['$']) := by
    simp [anchored]
  have reads : Reads .sequence (pattern.spelling.toList ++ ['$']) (pattern.language * 1) ['$'] :=
    reads_spelling regular (.done rfl)
  rw [mul_one] at reads
  constructor
  · rintro ⟨body, same, read⟩
    obtain rfl := (List.cons.inj (same.symm.trans whole)).2
    exact (read.unique reads).1
  · rintro rfl
    exact ⟨_, whole, reads⟩

end Pattern
end RouteDocs
