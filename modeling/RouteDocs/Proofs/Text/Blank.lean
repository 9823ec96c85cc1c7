import RouteDocs.Text.Blank

namespace RouteDocs
namespace Text

/-!
# White space around a text

Trimming is idempotent and does not see white space that stands around a text.
Both come from one fact, `trimList_padded`: what is trimmed off is white space,
and all white space at the ends is.

A separator that does not occur in a text divides nothing in it, so the pieces
of a text can be read off when it is put together from such texts.
-/

/-- Nothing but white space. -/
def Blank (characters : List Char) : Prop :=
  ∀ character ∈ characters, isBlank character = true

instance (characters : List Char) : Decidable (Blank characters) :=
  decidable_of_iff (characters.all isBlank = true) List.all_eq_true

theorem blank_nil : Blank [] := fun _ member => nomatch member

variable {front core back : List Char}

/-! ## Trimming -/

theorem trimFront_of_blank (blank : Blank front) (rest : List Char) :
    trimFront (front ++ rest) = trimFront rest :=
  List.dropWhile_append_of_pos blank

theorem trimBack_of_blank (blank : Blank back) (text : List Char) :
    trimBack (text ++ back) = trimBack text := by
  induction text with
  | nil =>
    induction back with
    | nil => rfl
    | cons character rest inductionHypothesis =>
      obtain ⟨first, others⟩ := List.forall_mem_cons.mp blank
      have none : trimBack rest = [] := inductionHypothesis others
      simp only [List.nil_append, trimBack, none, first, if_true]
  | cons character rest inductionHypothesis =>
    simp only [List.cons_append, trimBack, inductionHypothesis]

/-- White space around a text is trimmed off. -/
theorem trimList_padded (core : List Char) (blankFront : Blank front) (blankBack : Blank back) :
    trimList (front ++ core ++ back) = trimList core := by
  have ofBack : trimFront back = [] := by
    have whole := trimFront_of_blank blankBack []
    rwa [List.append_nil] at whole
  rw [trimList, List.append_assoc, trimFront_of_blank blankFront, trimList]
  unfold trimFront at ofBack ⊢
  rw [List.dropWhile_append]
  split
  · next empty => rw [ofBack, List.isEmpty_iff.mp empty]
  · rw [trimBack_of_blank blankBack]

/-- What is trimmed off in front is white space. -/
theorem exists_trimFront (text : List Char) :
    ∃ front, Blank front ∧ text = front ++ trimFront text := by
  refine ⟨text.takeWhile isBlank, fun character member => ?_, List.takeWhile_append_dropWhile.symm⟩
  exact List.all_eq_true.mp List.all_takeWhile character member

theorem exists_trimBack (text : List Char) :
    ∃ back, Blank back ∧ text = trimBack text ++ back := by
  induction text with
  | nil => exact ⟨[], blank_nil, rfl⟩
  | cons character rest inductionHypothesis =>
    obtain ⟨back, blank, same⟩ := inductionHypothesis
    unfold trimBack
    split
    · next none =>
      rw [none, List.nil_append] at same
      split
      · next first =>
        exact ⟨character :: rest, List.forall_mem_cons.mpr ⟨first, same ▸ blank⟩, rfl⟩
      · exact ⟨rest, same ▸ blank, rfl⟩
    · exact ⟨back, blank, congrArg (character :: ·) same⟩

theorem trimList_trimFront (text : List Char) : trimList (trimFront text) = trimList text := by
  obtain ⟨front, blank, same⟩ := exists_trimFront text
  have padded := trimList_padded (trimFront text) blank blank_nil
  rw [List.append_nil, ← same] at padded
  exact padded.symm

theorem trimList_trimBack (text : List Char) : trimList (trimBack text) = trimList text := by
  obtain ⟨back, blank, same⟩ := exists_trimBack text
  have padded := trimList_padded (trimBack text) blank_nil blank
  rw [List.nil_append, ← same] at padded
  exact padded.symm

theorem trimBack_append {rest : List Char} (kept : trimBack rest ≠ []) (text : List Char) :
    trimBack (text ++ rest) = text ++ trimBack rest := by
  induction text with
  | nil => rfl
  | cons character others inductionHypothesis =>
    rw [List.cons_append, trimBack, inductionHypothesis]
    split
    · next none => exact absurd (List.append_eq_nil_iff.mp none).2 kept
    · rfl

/-- There is nothing to trim at the end of a text that does not end with white space. -/
theorem trimBack_eq_self_iff {text : List Char} :
    trimBack text = text ↔ ∀ last ∈ text.getLast?, isBlank last = false := by
  constructor
  · intro kept last ends
    obtain ⟨front, rfl⟩ := List.getLast?_eq_some_iff.mp ends
    rw [Bool.eq_false_iff]
    intro blank
    have shorter : trimBack (front ++ [last]) = trimBack front :=
      trimBack_of_blank (List.forall_mem_singleton.mpr blank) front
    obtain ⟨back, -, whole⟩ := exists_trimBack front
    have lengths := congrArg List.length whole
    rw [← shorter, kept, List.length_append, List.length_append, List.length_singleton] at lengths
    omega
  · intro visible
    obtain ⟨back, blank, whole⟩ := exists_trimBack text
    cases found : back.getLast? with
    | none =>
      rw [List.getLast?_eq_none_iff.mp found, List.append_nil] at whole
      exact whole.symm
    | some last =>
      have ends : text.getLast? = some last := by
        rw [whole, List.getLast?_append, found, Option.some_or]
      have seen := visible last ends
      rw [blank last (List.mem_of_getLast? found)] at seen
      cases seen

/-- A trimmed text has nothing to trim in front. -/
theorem trimFront_of_trimmed (trimmed : trimList core = core) : trimFront core = core := by
  rcases exists_trimFront core with ⟨front, -, inFront⟩
  rcases exists_trimBack (trimFront core) with ⟨back, -, behind⟩
  change trimFront core = trimList core ++ back at behind
  rw [trimmed] at behind
  have lengths : core.length = front.length + (core.length + back.length) := by
    rw [← List.length_append, ← behind, ← List.length_append, ← inFront]
  have none : back = [] := List.eq_nil_of_length_eq_zero (by omega)
  rw [behind, none, List.append_nil]

/-- There is nothing to trim from a text without white space at its ends. -/
theorem trimList_of_visible_ends (begins : ∀ first ∈ core.head?, isBlank first = false)
    (ends : ∀ last ∈ core.getLast?, isBlank last = false) : trimList core = core := by
  have kept : trimFront core = core := by
    cases core with
    | nil => rfl
    | cons first rest => exact List.dropWhile_cons_of_neg (by simp [begins first rfl])
  rw [trimList, kept, trimBack_eq_self_iff.mpr ends]

/-- A text without white space is trimmed. -/
theorem trimList_of_visible (visible : ∀ character ∈ core, isBlank character = false) :
    trimList core = core :=
  trimList_of_visible_ends (fun first begins => visible first (List.mem_of_head? begins))
    (fun last ends => visible last (List.mem_of_getLast? ends))

theorem isBlank_of_isDigit {character : Char} (digit : character.isDigit = true) :
    isBlank character = false := by
  have range : 48 ≤ character.toNat ∧ character.toNat ≤ 57 := Char.isDigit_iff_toNat.mp digit
  simp only [isBlank, blankRanges, List.any_cons, List.any_nil, Bool.or_false,
    Bool.or_eq_false_iff, Bool.and_eq_false_iff, decide_eq_false_iff_not]
  omega

/-- A character that is not white space is kept, whatever follows it. -/
theorem trimBack_cons_of_visible {mark : Char} (visible : isBlank mark = false)
    (back : List Char) : trimBack (mark :: back) = mark :: trimBack back := by
  cases found : trimBack back with
  | nil => simp only [trimBack, found, visible, Bool.false_eq_true, if_false]
  | cons character rest => simp only [trimBack, found]

theorem trimBack_append_of_visible (visible : ∀ character ∈ core, isBlank character = false)
    (back : List Char) : trimBack (core ++ back) = core ++ trimBack back := by
  induction core with
  | nil => rfl
  | cons character rest inductionHypothesis =>
    obtain ⟨first, others⟩ := List.forall_mem_cons.mp visible
    rw [List.cons_append, trimBack_cons_of_visible first, inductionHypothesis others,
      List.cons_append]

/-- A mark in a text keeps the ends apart: each is trimmed by itself. -/
theorem trimList_around {mark : Char} (visible : isBlank mark = false) (front back : List Char) :
    trimList (front ++ mark :: back) = trimFront front ++ mark :: trimBack back := by
  have ofMark : trimFront (mark :: back) = mark :: back :=
    List.dropWhile_cons_of_neg (by rw [visible]; exact Bool.noConfusion)
  have behind := trimBack_cons_of_visible visible back
  have inFront : trimFront (front ++ mark :: back) = trimFront front ++ mark :: back := by
    unfold trimFront at ofMark ⊢
    rw [List.dropWhile_append]
    split
    · next empty => rw [ofMark, List.isEmpty_iff.mp empty, List.nil_append]
    · rfl
  have kept : trimBack (mark :: back) ≠ [] := by
    rw [behind]
    exact List.cons_ne_nil _ _
  rw [trimList, inFront, trimBack_append kept, behind]

/-! ## Separators -/

variable {separator : Char}

theorem not_mem_of_blank (visible : isBlank separator = false) (blank : Blank core) :
    separator ∉ core := by
  intro member
  rw [blank separator member] at visible
  cases visible

theorem not_mem_trimFront (absent : separator ∉ core) : separator ∉ trimFront core :=
  fun member => absent ((List.dropWhile_sublist _).mem member)

theorem pieces_ne_nil (separator : Char) (text : List Char) : pieces separator text ≠ [] := by
  cases text with
  | nil => exact List.cons_ne_nil _ _
  | cons character rest =>
    unfold pieces
    split
    · exact List.cons_ne_nil _ _
    · split <;> exact List.cons_ne_nil _ _

/-- The first piece of a text ends at the first separator. -/
theorem pieces_append (absent : separator ∉ core) (rest : List Char) :
    pieces separator (core ++ separator :: rest) = core :: pieces separator rest := by
  induction core with
  | nil =>
    obtain ⟨piece, others, found⟩ := List.exists_cons_of_ne_nil (pieces_ne_nil separator rest)
    simp only [List.nil_append, pieces, found, if_true]
  | cons character others inductionHypothesis =>
    obtain ⟨different, later⟩ := not_or.mp (mt List.mem_cons.mpr absent)
    simp only [List.cons_append, pieces, inductionHypothesis later, if_neg (Ne.symm different)]

theorem pieces_of_not_mem (absent : separator ∉ core) : pieces separator core = [core] := by
  induction core with
  | nil => rfl
  | cons character others inductionHypothesis =>
    obtain ⟨different, later⟩ := not_or.mp (mt List.mem_cons.mpr absent)
    simp only [pieces, inductionHypothesis later, if_neg (Ne.symm different)]

/-- A text is divided into the pieces that it was put together from. -/
theorem pieces_intercalate {parts : List (List Char)} (some : parts ≠ [])
    (absent : ∀ part ∈ parts, separator ∉ part) :
    pieces separator ([separator].intercalate parts) = parts := by
  induction parts with
  | nil => exact absurd rfl some
  | cons part rest inductionHypothesis =>
    rcases List.forall_mem_cons.mp absent with ⟨first, others⟩
    cases rest with
    | nil => rw [List.intercalate_singleton, pieces_of_not_mem first]
    | cons next further =>
      rw [List.intercalate_cons_cons, List.append_assoc, List.singleton_append,
        pieces_append first, inductionHypothesis (List.cons_ne_nil _ _) others]

theorem splitFirst_append (absent : separator ∉ core) (rest : List Char) :
    splitFirst separator (core ++ separator :: rest) = some (core, rest) := by
  induction core with
  | nil => simp only [List.nil_append, splitFirst, if_true]
  | cons character others inductionHypothesis =>
    obtain ⟨different, later⟩ := not_or.mp (mt List.mem_cons.mpr absent)
    simp only [List.cons_append, splitFirst, inductionHypothesis later, if_neg (Ne.symm different)]

theorem splitFirst_of_not_mem (absent : separator ∉ core) : splitFirst separator core = none := by
  induction core with
  | nil => rfl
  | cons character others inductionHypothesis =>
    obtain ⟨different, later⟩ := not_or.mp (mt List.mem_cons.mpr absent)
    simp only [splitFirst, inductionHypothesis later, if_neg (Ne.symm different)]

/-- An ending that was put behind a text is taken off again. -/
theorem withoutEnding_append (front ending : List Char) :
    withoutEnding ending (front ++ ending) = some front := by
  have ends : ending.isSuffixOf (front ++ ending) = true :=
    List.isSuffixOf_iff_suffix.mpr (List.suffix_append front ending)
  rw [withoutEnding, if_pos ends, List.length_append, Nat.add_sub_cancel, List.take_left]

end Text
end RouteDocs
