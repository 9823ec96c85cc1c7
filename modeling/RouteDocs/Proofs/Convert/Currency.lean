import RouteDocs.Convert.Format
import RouteDocs.Proofs.Convert.Expression

namespace RouteDocs

/-!
# Amounts of money

The pattern and the example of an amount are put together apart from each other, from a
symbol and two separators that are free texts.  Whatever these are, the example is among
the texts that the pattern describes, with a sign in front of it as well, and without the
symbol where that may be missing (`CurrencyFormat.example_fits_pattern`).

Nothing about the free texts is needed for that.  The example is divided as the pattern
is, into a symbol, a group of two digits, one separated group of three, and a separated
fraction of two.  Other ways to divide it, which empty separators or separators made of
digits allow, do no harm.
-/

namespace Pattern

variable {inner : Language Char} {least : Nat} {most : Option Nat} {text : List Char}

theorem nil_mem_times : [] ∈ times inner 0 most :=
  ⟨0, Nat.le_refl 0, fun bound _ => Nat.zero_le bound, rfl⟩

theorem mem_times_of_mem (member : text ∈ inner) (atMostOnce : least ≤ 1)
    (atLeastOnce : ∀ bound ∈ most, 1 ≤ bound) : text ∈ times inner least most :=
  ⟨1, atMostOnce, atLeastOnce, (pow_one inner).symm ▸ member⟩

/-- A run of digits is counted by its length. -/
theorem mem_times_digits (only : ∀ character ∈ text, character.isDigit = true)
    (enough : least ≤ text.length) (within : ∀ bound ∈ most, text.length ≤ bound) :
    text ∈ times digits least most := by
  refine ⟨text.length, enough, within, Language.mem_pow.mpr ⟨text.map fun character => [character],
    ?_, ?_, ?_⟩⟩
  · rw [← List.flatMap_def, List.flatMap_singleton']
  · rw [List.length_map]
  · intro single member
    obtain ⟨character, inside, rfl⟩ := List.mem_map.mp member
    exact ⟨character, only character inside, rfl⟩

end Pattern

namespace CurrencyFormat

open Pattern Expression

theorem regular_shape (format : CurrencyFormat) : format.shape.Regular := by
  have symbol : format.symbolShape.Regular := by
    unfold symbolShape
    split
    · trivial
    · split
      · exact ⟨trivial, by simp⟩
      · trivial
  have sign : isOperator '-' = false := by decide
  refine ⟨⟨sign, by simp⟩, symbol, ?_, ?_⟩
  · simp [unitsShape, Regular]
  · simp [fractionShape, Regular]

/-- The amount of the example, without sign and symbol. -/
def amount (format : CurrencyFormat) : String :=
  "12" ++ format.thousand ++ "345" ++ format.decimal ++ "67"

theorem units_mem (format : CurrencyFormat) :
    "12".toList ++ (format.thousand.toList ++ "345".toList) ∈ format.unitsShape.language := by
  have group : format.thousand.toList ++ "345".toList ∈
      (Pattern.sequence (.exactly format.thousand.toList)
        (.repeated .digit 3 (some 3))).language :=
    Language.append_mem_mul rfl (mem_times_digits (by simp) (by decide) (by decide))
  exact Or.inl (Language.append_mem_mul (mem_times_digits (by simp) (by decide) (by decide))
    (mem_times_of_mem group (by decide) (by simp)))

theorem fraction_mem (format : CurrencyFormat) :
    format.decimal.toList ++ "67".toList ∈ format.fractionShape.language :=
  mem_times_of_mem
    (Language.append_mem_mul rfl (mem_times_digits (by simp) (by decide) (by decide)))
    (by decide) (by decide)

theorem amount_mem (format : CurrencyFormat) :
    format.amount.toList ∈ format.unitsShape.language * format.fractionShape.language := by
  have whole := Language.append_mem_mul format.units_mem format.fraction_mem
  simpa [amount] using whole

/-- The symbol is described where it stands. -/
theorem symbol_mem (format : CurrencyFormat) :
    (format.symbol.getD "").toList ∈ format.symbolShape.language := by
  unfold symbolShape
  split
  · next none =>
    rw [none]
    rfl
  · next symbol same =>
    rw [same]
    split
    · exact mem_times_of_mem rfl (by decide) (by decide)
    · rfl

theorem nil_mem_symbolShape {format : CurrencyFormat} {symbol : String}
    (given : format.symbol = some symbol) (optional : format.symbolOptional = true) :
    [] ∈ format.symbolShape.language := by
  rw [symbolShape, given, optional]
  exact nil_mem_times

/-- What is described behind a sign is described with and without it. -/
theorem shape_mem (format : CurrencyFormat) {symbol text : List Char}
    (ofSymbol : symbol ∈ format.symbolShape.language)
    (ofAmount : text ∈ format.unitsShape.language * format.fractionShape.language) :
    symbol ++ text ∈ format.shape.language ∧ '-' :: (symbol ++ text) ∈ format.shape.language := by
  have behind := Language.append_mem_mul ofSymbol ofAmount
  have unsigned : [] ++ (symbol ++ text) ∈ format.shape.language :=
    Language.append_mem_mul nil_mem_times behind
  have signed : ['-'] ++ (symbol ++ text) ∈ format.shape.language :=
    Language.append_mem_mul (mem_times_of_mem rfl (by decide) (by decide)) behind
  exact ⟨unsigned, signed⟩

/-- The pattern of an amount is an expression that is read in one way, and what it describes
contains the example, the example behind a sign, and, where the symbol may be missing, the
example without it. -/
theorem example_fits_pattern (format : CurrencyFormat) (standard : format.customPattern = none) :
    ∃ language shown, (∀ read, Describes format.pattern read ↔ read = language) ∧
      format.example? = some shown ∧ shown.toList ∈ language ∧ ("-" ++ shown).toList ∈ language ∧
      ∀ symbol, format.symbol = some symbol → format.symbolOptional = true →
        ∃ bare, shown = symbol ++ bare ∧ bare.toList ∈ language := by
  have spelled : format.pattern = format.shape.anchored := by rw [pattern, standard]
  have shown : format.example? = some (format.symbol.getD "" ++ format.amount) := by
    rw [example?, standard, amount]
    simp only [String.append_assoc]
  have withSymbol := format.shape_mem format.symbol_mem format.amount_mem
  refine ⟨format.shape.language, _, ?_, shown, ?_, ?_, ?_⟩
  · intro read
    rw [spelled]
    exact describes_anchored_iff format.regular_shape
  · rw [String.toList_append]
    exact withSymbol.1
  · rw [String.toList_append, String.toList_append]
    exact withSymbol.2
  · intro symbol given optional
    refine ⟨format.amount, by rw [given, Option.getD_some], ?_⟩
    exact (format.shape_mem (nil_mem_symbolShape given optional) format.amount_mem).1

/-- A symbol with a special character, no separator of groups, and a digit as the other
separator. -/
def ambiguous : CurrencyFormat :=
  { symbol := some "R$", symbolOptional := true, thousandSeparator := some "",
    decimalSeparator := some "4" }

/-- The example could be divided in several ways, and is described all the same. -/
theorem example_fits_pattern_ambiguous :
    ambiguous.pattern =
        "^-?(?:R\\$)?(?:[0-9]\x7b1,3\x7d(?:[0-9]\x7b3\x7d)*|[0-9]+)(?:4[0-9]\x7b1,2\x7d)?$" ∧
      ∃ language, (∀ read, Describes ambiguous.pattern read ↔ read = language) ∧
        "R$12345467".toList ∈ language ∧ "-R$12345467".toList ∈ language ∧
        "12345467".toList ∈ language := by
  refine ⟨by decide, ?_⟩
  obtain ⟨language, shown, described, same, unsigned, signed, bare⟩ :=
    example_fits_pattern ambiguous rfl
  obtain rfl : "R$12345467" = shown := Option.some.inj same
  obtain ⟨amount, parts, member⟩ := bare "R$" rfl rfl
  have whole : "R$".toList ++ "12345467".toList = "R$".toList ++ amount.toList :=
    (congrArg String.toList parts).trans String.toList_append
  exact ⟨language, described, unsigned, signed, List.append_cancel_left whole ▸ member⟩

end CurrencyFormat
end RouteDocs
