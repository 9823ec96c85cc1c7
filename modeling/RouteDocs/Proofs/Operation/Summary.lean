import RouteDocs.Operation.Summary
import RouteDocs.Proofs.Text.Blank

namespace RouteDocs

/-!
# Templates of summaries

A template without other braces than those of its placeholders is cut into exactly the
parts that it is written with, because a word ends where white space or a brace begins.
Each placeholder with a known name is replaced by the value of that name and each other
one is left as it is written, and the parts are put together after all of them are
replaced (`SummaryTemplate.render_parts`).  The values take no part in the cutting: a
value that looks like a placeholder, or that would make one with what stands around it,
comes into the summary as it is.
-/

namespace Text

/-- White space is in no word: the ranges of the two tables are apart. -/
theorem isWord_of_isBlank {character : Char} (blank : isBlank character = true) :
    isWord character = false := by
  have apart : ∀ blanks ∈ blankRanges, ∀ words ∈ wordRanges,
      blanks.2 < words.1 ∨ words.2 < blanks.1 := by
    decide +kernel
  simp only [isBlank, List.any_eq_true, Bool.and_eq_true, decide_eq_true_iff] at blank
  obtain ⟨blanks, blankRange, fromBlank, toBlank⟩ := blank
  rw [Bool.eq_false_iff]
  intro word
  simp only [isWord, List.any_eq_true, Bool.and_eq_true, decide_eq_true_iff] at word
  obtain ⟨words, wordRange, fromWord, toWord⟩ := word
  have disjoint := apart blanks blankRange words wordRange
  omega

end Text

/-- The values by the names that placeholders have for them. -/
def SummaryValues.named (values : SummaryValues) : List (String × String) :=
  [("summary", values.summary), ("action", values.action), ("autoAlias", values.autoAlias)]

/-- A placeholder as it is written: a word, perhaps with white space around it, between
two open and two closed braces. -/
structure Placeholder where
  front : List Char
  word : List Char
  back : List Char
  blankFront : Text.Blank front
  nonempty : word ≠ []
  ofWord : ∀ character ∈ word, Text.isWord character = true
  blankBack : Text.Blank back

namespace Placeholder

def written (placeholder : Placeholder) : List Char :=
  '\x7b' :: '\x7b' ::
    (placeholder.front ++ (placeholder.word ++ (placeholder.back ++ ['\x7d', '\x7d'])))

/-- What stands in a summary for a placeholder: the value of its name, if there is one. -/
def shown (values : SummaryValues) (placeholder : Placeholder) : List Char :=
  match values.named.lookup (String.ofList placeholder.word) with
  | some value => value.toList
  | none => placeholder.written

end Placeholder

/-- A part of a template: a text without braces, or a placeholder. -/
inductive TemplatePart where
  | literal (text : List Char)
      (plain : ∀ character ∈ text, character ≠ '\x7b' ∧ character ≠ '\x7d')
  | placeholder (inner : Placeholder)

namespace TemplatePart

def written (part : TemplatePart) : List Char :=
  match part with
  | .literal text _ => text
  | .placeholder inner => inner.written

def shown (values : SummaryValues) (part : TemplatePart) : List Char :=
  match part with
  | .literal text _ => text
  | .placeholder inner => inner.shown values

end TemplatePart

namespace Piece

/-! ## Cutting a template -/

/-- What belongs to a placeholder already found is not cut. -/
theorem ofTemplate_skip (front rest : List Char) :
    ofTemplate front.length (front ++ rest) = ofTemplate 0 rest := by
  induction front with
  | nil => rfl
  | cons character others inductionHypothesis => exact inductionHypothesis

theorem placeholder?_of_ne {character : Char} (noBrace : character ≠ '\x7b')
    (rest : List Char) : placeholder? (character :: rest) = none := by
  unfold placeholder?
  split
  · next same => exact absurd (List.cons.inj same).1 noBrace
  · rfl

theorem ofTemplate_literal {text : List Char} (noBrace : ∀ character ∈ text, character ≠ '\x7b')
    (rest : List Char) :
    ofTemplate 0 (text ++ rest) = text.map Piece.literal ++ ofTemplate 0 rest := by
  induction text with
  | nil => rfl
  | cons character others inductionHypothesis =>
    obtain ⟨first, further⟩ := List.forall_mem_cons.mp noBrace
    rw [List.cons_append, ofTemplate, placeholder?_of_ne first, inductionHypothesis further]
    rfl

/-- A word ends in front of the white space or the brace behind it. -/
theorem exists_cons_behind_word (placeholder : Placeholder) (rest : List Char) :
    ∃ next others, placeholder.back ++ '\x7d' :: '\x7d' :: rest = next :: others ∧
      Text.isWord next = false := by
  cases found : placeholder.back with
  | nil => exact ⟨'\x7d', '\x7d' :: rest, rfl, by decide +kernel⟩
  | cons blank others =>
    have ofBlank : Text.isBlank blank = true := placeholder.blankBack blank (by simp [found])
    exact ⟨blank, _, rfl, Text.isWord_of_isBlank ofBlank⟩

/-- A placeholder is found where it stands, with its word, whatever follows it. -/
theorem placeholder?_written (placeholder : Placeholder) (rest : List Char) :
    placeholder? (placeholder.written ++ rest) = some (placeholder.word, rest) := by
  obtain ⟨next, others, behind, noWord⟩ := exists_cons_behind_word placeholder rest
  obtain ⟨first, more, word⟩ := List.exists_cons_of_ne_nil placeholder.nonempty
  have visible : Text.isBlank first = false := by
    rw [Bool.eq_false_iff]
    intro blank
    have ofWord := placeholder.ofWord first (by simp [word])
    rw [Text.isWord_of_isBlank blank] at ofWord
    cases ofWord
  have inside : placeholder.written ++ rest =
      '\x7b' :: '\x7b' :: (placeholder.front ++ (placeholder.word ++ next :: others)) := by
    simp [Placeholder.written, ← behind]
  have fromWord : (placeholder.front ++ (placeholder.word ++ next :: others)).dropWhile
      Text.isBlank = placeholder.word ++ next :: others := by
    rw [List.dropWhile_append_of_pos placeholder.blankFront, word, List.cons_append,
      List.dropWhile_cons_of_neg (by simp [visible])]
  have taken : (placeholder.word ++ next :: others).takeWhile Text.isWord = placeholder.word := by
    rw [List.takeWhile_append_of_pos placeholder.ofWord,
      List.takeWhile_cons_of_neg (by simp [noWord]), List.append_nil]
  have left : (placeholder.word ++ next :: others).dropWhile Text.isWord = next :: others := by
    rw [List.dropWhile_append_of_pos placeholder.ofWord,
      List.dropWhile_cons_of_neg (by simp [noWord])]
  have closed : (next :: others).dropWhile Text.isBlank = '\x7d' :: '\x7d' :: rest := by
    rw [← behind, List.dropWhile_append_of_pos placeholder.blankBack]
    exact List.dropWhile_cons_of_neg (by decide)
  have present : placeholder.word.isEmpty = false := by rw [word]; rfl
  simp only [inside, placeholder?, fromWord, taken, left, closed, present, Bool.false_eq_true,
    if_false]

theorem ofTemplate_placeholder (placeholder : Placeholder) (rest : List Char) :
    ofTemplate 0 (placeholder.written ++ rest) =
      .placeholder placeholder.word placeholder.written :: ofTemplate 0 rest := by
  have found := placeholder?_written placeholder rest
  obtain ⟨inside, whole⟩ : ∃ inside, placeholder.written = '\x7b' :: inside := ⟨_, rfl⟩
  rw [whole, List.cons_append] at found
  have skipped : (inside ++ rest).length - rest.length = inside.length := by
    rw [List.length_append, Nat.add_sub_cancel]
  have taken : ('\x7b' :: (inside ++ rest)).take ((inside ++ rest).length + 1 - rest.length) =
      '\x7b' :: inside := by
    rw [List.length_append, Nat.add_right_comm, Nat.add_sub_cancel, List.take_succ_cons,
      List.take_left]
  rw [whole, List.cons_append, ofTemplate, found]
  simp only [taken, skipped, ofTemplate_skip]

theorem fill_placeholder (values : SummaryValues) (placeholder : Placeholder) :
    fill values (.placeholder placeholder.word placeholder.written) =
      placeholder.shown values := by
  have known : ∀ name : String, placeholder.word = name.toList ↔
      String.ofList placeholder.word = name := by
    intro name
    rw [← String.toList_inj, String.toList_ofList]
  simp only [fill, known, Placeholder.shown]
  by_cases summary : String.ofList placeholder.word = "summary"
  · rw [if_pos summary, summary]
    rfl
  · by_cases action : String.ofList placeholder.word = "action"
    · rw [if_neg summary, if_pos action, action]
      rfl
    · by_cases autoAlias : String.ofList placeholder.word = "autoAlias"
      · rw [if_neg summary, if_neg action, if_pos autoAlias, autoAlias]
        rfl
      · have unknown : values.named.lookup (String.ofList placeholder.word) = none := by
          simp [SummaryValues.named, List.lookup_eq_none_iff, summary, action, autoAlias]
        rw [if_neg summary, if_neg action, if_neg autoAlias, unknown]

theorem fill_literals (values : SummaryValues) (text : List Char) :
    (text.map Piece.literal).flatMap (fill values) = text := by
  rw [List.flatMap_map]
  exact List.flatMap_singleton' text

/-- A template is cut and filled part by part. -/
theorem fill_parts (values : SummaryValues) (parts : List TemplatePart) :
    (ofTemplate 0 (parts.flatMap TemplatePart.written)).flatMap (fill values) =
      parts.flatMap (TemplatePart.shown values) := by
  induction parts with
  | nil => rfl
  | cons part others inductionHypothesis =>
    rw [List.flatMap_cons, List.flatMap_cons, ← inductionHypothesis]
    cases part with
    | literal text plain =>
      have noBrace : ∀ character ∈ text, character ≠ '\x7b' :=
        fun character member => (plain character member).1
      rw [TemplatePart.written, ofTemplate_literal noBrace, List.flatMap_append, fill_literals,
        TemplatePart.shown]
    | placeholder inner =>
      rw [TemplatePart.written, ofTemplate_placeholder, List.flatMap_cons, fill_placeholder,
        TemplatePart.shown]

end Piece

namespace SummaryTemplate

/-- A summary is its template with every known placeholder replaced by its value, as it is,
and without white space at its ends. -/
theorem render_parts (values : SummaryValues) (parts : List TemplatePart) :
    render (.pattern (String.ofList (parts.flatMap TemplatePart.written))) values =
      Text.trim (String.ofList (parts.flatMap (TemplatePart.shown values))) := by
  rw [render, Text.trim, String.toList_ofList, String.toList_ofList, Piece.fill_parts]

/-- A value that looks like a placeholder is not replaced again. -/
example :
    render (.pattern " \x7b\x7b action \x7d\x7d: \x7b\x7bsummary\x7d\x7d\x7b\x7b other \x7d\x7d")
      { summary := "\x7b\x7bautoAlias\x7d\x7d", action := "users.list", autoAlias := "alias" } =
      "users.list: \x7b\x7bautoAlias\x7d\x7d\x7b\x7b other \x7d\x7d" := by
  decide +kernel

end SummaryTemplate
end RouteDocs
