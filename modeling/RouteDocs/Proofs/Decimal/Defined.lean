import RouteDocs.Decimal.Numeral

namespace RouteDocs
namespace Decimal

/-!
# Numbers that are defined

A binary64 number is the same as itself unless it is the undefined one.  That
one comes from no numeral: rounding never makes it, and the nearest number to
an integer or to a decimal is rounded, infinite or zero.
-/

open Float.Model

/-- The number is not the undefined one. -/
def IsDefined (number : Float) : Prop :=
  number.toModel.unpack ≠ .notANumber

/-! ## Unpacked numbers -/

theorem unpacked_beq_self {number : UnpackedFloat} (defined : number ≠ .notANumber) :
    number.beq number = true := by
  cases number with
  | notANumber => exact absurd rfl defined
  | infinity sign => cases sign <;> rfl
  | zero sign => rfl
  | finite sign mantissa exponent positive =>
    have exponents : compare exponent exponent = .eq := Std.ReflOrd.compare_self
    have mantissas : compare mantissa mantissa = .eq := Std.ReflOrd.compare_self
    have whole : (compare exponent exponent).then (compare mantissa mantissa) = .eq := by
      rw [exponents, mantissas]
      rfl
    cases sign with
    | positive => exact congrArg (fun order => some order == some Ordering.eq) whole
    | negative => exact congrArg (fun order => some order.swap == some Ordering.eq) whole

/-- A choice between defined numbers is defined. -/
theorem ite_ne_notANumber {condition : Prop} [Decidable condition] {first second : UnpackedFloat}
    (positive : condition → first ≠ .notANumber) (negative : ¬condition → second ≠ .notANumber) :
    ite condition first second ≠ .notANumber := by
  by_cases given : condition
  · rw [if_pos given]
    exact positive given
  · rw [if_neg given]
    exact negative given

theorem dite_ne_notANumber {condition : Prop} [Decidable condition]
    {first : condition → UnpackedFloat} {second : ¬condition → UnpackedFloat}
    (positive : ∀ given, first given ≠ .notANumber)
    (negative : ∀ given, second given ≠ .notANumber) :
    dite condition first second ≠ .notANumber := by
  by_cases given : condition
  · rw [dif_pos given]
    exact positive given
  · rw [dif_neg given]
    exact negative given

/-- The undefined number has the greatest exponent, and a mantissa beside it. -/
theorem unpack_ne_notANumber {bits : BitVec Format.binary64.numBits}
    (ordinary : UnpackedFloat.unpackExponent bits ≠ -1 ∨ UnpackedFloat.unpackMantissa bits = 0) :
    UnpackedFloat.unpack .binary64 bits ≠ .notANumber := by
  apply ite_ne_notANumber
  · intro greatest
    apply ite_ne_notANumber
    · exact fun _ => UnpackedFloat.noConfusion
    · intro some
      rcases ordinary with other | none
      · exact absurd greatest other
      · exact absurd none some
  · intro _
    apply ite_ne_notANumber
    · exact fun _ => dite_ne_notANumber (fun _ => UnpackedFloat.noConfusion)
        fun _ => UnpackedFloat.noConfusion
    · exact fun _ => UnpackedFloat.noConfusion

theorem unpack_pack_ne_notANumber {number : UnpackedFloat} (defined : number ≠ .notANumber) :
    UnpackedFloat.unpack .binary64 (number.pack .binary64) ≠ .notANumber := by
  apply unpack_ne_notANumber
  unfold UnpackedFloat.pack
  split
  · exact absurd rfl defined
  · exact Or.inr UnpackedFloat.unpackMantissa_packComponents
  · exact Or.inr UnpackedFloat.unpackMantissa_packComponents
  · dsimp only
    split
    · exact Or.inr UnpackedFloat.unpackMantissa_packComponents
    · next fits =>
      left
      split
      · rw [UnpackedFloat.unpackExponent_packComponents]
        intro same
        have whole := congrArg BitVec.toNat same
        have greatest : (-1 : BitVec Format.binary64.exponentBits).toNat = 2 ^ 11 - 1 := by decide
        rw [BitVec.toNat_ofNat, Nat.mod_eq_of_lt (by omega), greatest] at whole
        omega
      · rw [UnpackedFloat.unpackExponent_packComponents]
        decide

theorem roundWithAccuracy_ne_notANumber (spec : Format) (sign : UnpackedFloat.Sign)
    (mantissa : Nat) (exponent : Int) (accuracy : UnpackedFloat.Accuracy) :
    UnpackedFloat.roundWithAccuracy spec sign mantissa exponent accuracy ≠ .notANumber :=
  dite_ne_notANumber (fun _ => UnpackedFloat.noConfusion) fun _ => UnpackedFloat.noConfusion

theorem ofScientific_ne_notANumber (digits : Nat) (exponent : Int) :
    UnpackedFloat.ofScientific .binary64 digits exponent ≠ .notANumber := by
  refine dite_ne_notANumber (fun _ => UnpackedFloat.noConfusion) fun _ => ?_
  refine ite_ne_notANumber (fun _ => UnpackedFloat.noConfusion) fun _ => ?_
  refine ite_ne_notANumber (fun _ => UnpackedFloat.noConfusion) fun _ => ?_
  exact ite_ne_notANumber (fun _ => roundWithAccuracy_ne_notANumber _ _ _ _ _)
    fun _ => roundWithAccuracy_ne_notANumber _ _ _ _ _

theorem ofUInt64_ne_notANumber (size : UInt64) :
    UnpackedFloat.ofUInt64 .binary64 size ≠ .notANumber := by
  unfold UnpackedFloat.ofUInt64 UnpackedFloat.ofNat UnpackedFloat.ofInt UnpackedFloat.normalize
  split
  · exact roundWithAccuracy_ne_notANumber _ _ _ _ _
  · exact UnpackedFloat.noConfusion
  · exact roundWithAccuracy_ne_notANumber _ _ _ _ _

/-- A product with a finite number other than zero is undefined only for the undefined number. -/
theorem mul_finite_ne_notANumber {number : UnpackedFloat} (defined : number ≠ .notANumber)
    (sign : UnpackedFloat.Sign) (mantissa : Nat) (exponent : Int) (positive : 0 < mantissa) :
    number.mul .binary64 (.finite sign mantissa exponent positive) ≠ .notANumber := by
  cases number with
  | notANumber => exact absurd rfl defined
  | infinity sign => exact UnpackedFloat.noConfusion
  | zero sign => exact UnpackedFloat.noConfusion
  | finite sign mantissa exponent positive => exact roundWithAccuracy_ne_notANumber _ _ _ _ _

/-! ## Numbers -/

namespace IsDefined

variable {number : Float}

theorem same (defined : IsDefined number) : (number == number) = true :=
  unpacked_beq_self defined

theorem of_isFinite (finite : number.isFinite = true) : IsDefined number := by
  intro undefined
  have isFinite : number.toModel.unpack.isFinite = true := finite
  rw [undefined] at isFinite
  cases isFinite

theorem neg (defined : IsDefined number) : IsDefined (-number) := by
  have opposite : number.toModel.unpack.neg ≠ .notANumber := by
    intro undefined
    cases given : number.toModel.unpack with
    | notANumber => exact defined given
    | _ =>
      rw [given] at undefined
      cases undefined
  exact unpack_pack_ne_notANumber opposite

end IsDefined

/-- Small integers are rounded once and multiplied by one, all others are rounded as decimals. -/
theorem isDefined_ofNat (size : Nat) : IsDefined (ofNat size) := by
  have one : Float.exactlyRepresentablePowersOfTen[0].toModel.unpack =
      .finite .positive (2 ^ 52) (-52) (by decide) := by rfl
  unfold IsDefined ofNat Float.ofScientific
  split
  · have rounded : size.toUInt64.toFloat.toModel.unpack ≠ .notANumber :=
      unpack_pack_ne_notANumber (ofUInt64_ne_notANumber _)
    have product := mul_finite_ne_notANumber rounded .positive (2 ^ 52) (-52) (by decide)
    rw [← one] at product
    exact unpack_pack_ne_notANumber product
  · exact unpack_pack_ne_notANumber (ofScientific_ne_notANumber _ _)

theorem isDefined_ofInt (value : Int) : IsDefined (ofInt value) := by
  cases value with
  | ofNat size => exact isDefined_ofNat size
  | negSucc size => exact (isDefined_ofNat (size + 1)).neg

theorem isDefined_of_toFloat? {numeral : Numeral} {number : Float}
    (read : numeral.toFloat? = some number) : IsDefined number := by
  have zero : IsDefined 0.0 := IsDefined.of_isFinite (by decide)
  rcases Option.map_eq_some_iff.mp read with ⟨size, found, signed⟩
  have defined : IsDefined size := by
    split at found
    · cases found
      exact zero
    · split at found
      · cases found
      · split at found
        · cases found
          exact zero
        · simp only at found
          split at found
          · next finite =>
            cases found
            exact .of_isFinite finite
          · cases found
  split at signed
  · exact signed ▸ defined.neg
  · exact signed ▸ defined

theorem isDefined_of_real? {text : List Char} {number : Float} (read : real? text = some number) :
    IsDefined number := by
  unfold real? at read
  split at read
  · exact isDefined_of_toFloat? read
  · cases read

end Decimal
end RouteDocs
