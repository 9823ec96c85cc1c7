import RouteDocs.Decimal.Numeral

namespace RouteDocs
namespace Decimal

/-!
# Written integers

An integer of sixty-four bits in its usual form, digits behind at most a minus
sign, is read as itself.  Inside a longer text its digits end in front of the first
character that is none.
-/

theorem isDigit_of_mem_toDigits {number : Nat} {character : Char}
    (member : character ∈ Nat.toDigits 10 number) : character.isDigit = true :=
  Nat.isDigit_of_mem_toDigits (by decide) (by decide) member

theorem digitValue?_of_isDigit {character : Char} (digit : character.isDigit = true) :
    digitValue? 10 character = some (character.toNat - '0'.toNat) := by
  have range : 48 ≤ character.toNat ∧ character.toNat ≤ 57 := Char.isDigit_iff_toNat.mp digit
  have small : character.toNat - 48 < 10 := by omega
  simp only [digitValue?, if_pos range, Option.filter_some, decide_eq_true small, if_true]
  rfl

/-- Taking over one digit after the other gives the number that they stand for. -/
theorem foldl_of_isDigit {step : Option Nat → Char → Option Nat}
    (steps : ∀ value digit, digit.isDigit = true →
      step (some value) digit = some (10 * value + (digit.toNat - '0'.toNat)))
    {digits : List Char} (decimal : ∀ digit ∈ digits, digit.isDigit = true) (value : Nat) :
    digits.foldl step (some value) = some (Nat.ofDigitChars 10 digits value) := by
  induction digits generalizing value with
  | nil => rfl
  | cons digit rest inductionHypothesis =>
    obtain ⟨first, others⟩ := List.forall_mem_cons.mp decimal
    rw [List.foldl_cons, steps value digit first]
    exact inductionHypothesis others _

/-- A run of decimal digits is read as the number that they stand for. -/
theorem natural?_of_isDigit {digits : List Char} (present : digits ≠ [])
    (decimal : ∀ digit ∈ digits, digit.isDigit = true) :
    natural? 10 digits = some (Nat.ofDigitChars 10 digits 0) := by
  rw [natural?, if_neg (by simpa using present)]
  exact foldl_of_isDigit (fun value digit isDigit => by
    simp only [digitValue?_of_isDigit isDigit]) decimal 0

theorem natural?_toDigits (number : Nat) : natural? 10 (Nat.toDigits 10 number) = some number := by
  rw [natural?_of_isDigit Nat.toDigits_ne_nil fun _ => isDigit_of_mem_toDigits,
    Nat.ofDigitChars_ten_toDigits]

/-- Digits do not begin with a sign. -/
theorem splitSign_toDigits (number : Nat) :
    splitSign (Nat.toDigits 10 number) = (false, Nat.toDigits 10 number) := by
  unfold splitSign
  split
  · next rest begins =>
    have digit : '-'.isDigit = true :=
      isDigit_of_mem_toDigits (begins ▸ List.mem_cons_self : '-' ∈ Nat.toDigits 10 number)
    cases digit
  · next rest begins =>
    have digit : '+'.isDigit = true :=
      isDigit_of_mem_toDigits (begins ▸ List.mem_cons_self : '+' ∈ Nat.toDigits 10 number)
    cases digit
  · rfl

theorem toList_toString_ofNat (size : Nat) :
    (toString (Int.ofNat size)).toList = Nat.toDigits 10 size := by
  rw [Int.toString_eq_repr]
  exact Nat.toList_repr

theorem toList_toString_negSucc (size : Nat) :
    (toString (Int.negSucc size)).toList = '-' :: Nat.toDigits 10 (size + 1) := by
  rw [Int.toString_eq_repr]
  change ("-" ++ (size + 1).repr).toList = _
  rw [String.toList_append, Nat.toList_repr]
  rfl

theorem eq_sign_or_isDigit_of_mem {number : Int} {character : Char}
    (member : character ∈ (toString number).toList) :
    character = '-' ∨ character.isDigit = true := by
  cases number with
  | ofNat size =>
    rw [toList_toString_ofNat] at member
    exact Or.inr (isDigit_of_mem_toDigits member)
  | negSucc size =>
    rw [toList_toString_negSucc] at member
    exact (List.mem_cons.mp member).imp_right isDigit_of_mem_toDigits

/-- An integer of sixty-four bits is read from its usual form. -/
theorem integer?_toString {number : Int} (fits : fitsSigned number = true) :
    integer? (toString number).toList = some number := by
  cases number with
  | ofNat size =>
    simp only [integer?, toList_toString_ofNat, splitSign_toDigits, natural?_toDigits,
      Bool.false_eq_true, if_false, if_pos fits]
  | negSucc size =>
    have value : -Int.ofNat (size + 1) = Int.negSucc size := rfl
    simp only [integer?, toList_toString_negSucc, splitSign, natural?_toDigits, if_true, value,
      if_pos fits]

/-! ## Digits inside a text -/

variable {rest otherRest : List Char} {mark otherMark : Char}

theorem takeWhile_toDigits_append (number : Nat) (plain : mark.isDigit = false)
    (rest : List Char) :
    (Nat.toDigits 10 number ++ mark :: rest).takeWhile Char.isDigit = Nat.toDigits 10 number := by
  rw [List.takeWhile_append_of_pos fun _ => isDigit_of_mem_toDigits,
    List.takeWhile_cons_of_neg (by simp [plain]), List.append_nil]

theorem toDigits_append_inj {first second : Nat} (plain : mark.isDigit = false)
    (otherPlain : otherMark.isDigit = false)
    (same : Nat.toDigits 10 first ++ mark :: rest =
      Nat.toDigits 10 second ++ otherMark :: otherRest) :
    first = second ∧ mark = otherMark ∧ rest = otherRest := by
  have numerals := congrArg (List.takeWhile Char.isDigit) same
  rw [takeWhile_toDigits_append first plain, takeWhile_toDigits_append second otherPlain]
    at numerals
  rw [numerals] at same
  obtain ⟨marks, rests⟩ := List.cons.inj (List.append_cancel_left same)
  refine ⟨?_, marks, rests⟩
  rw [← Nat.ofDigitChars_ten_toDigits (n := first), numerals, Nat.ofDigitChars_ten_toDigits]

/-- A text that begins with a number does not begin with another character. -/
theorem toDigits_append_ne {number : Nat} (plain : mark.isDigit = false) (behind : List Char) :
    Nat.toDigits 10 number ++ behind ≠ mark :: rest := by
  intro same
  obtain ⟨digit, others, numeral⟩ := List.exists_cons_of_ne_nil
    (Nat.toDigits_ne_nil (b := 10) (n := number))
  have isDigit : digit.isDigit = true :=
    isDigit_of_mem_toDigits (numeral ▸ List.mem_cons_self : digit ∈ Nat.toDigits 10 number)
  rw [numeral] at same
  rw [(List.cons.inj same).1, plain] at isDigit
  cases isDigit

end Decimal
end RouteDocs
