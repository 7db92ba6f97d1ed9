import Mathlib
import Plainspoken.Number.Remainder

/-!
# Rounding and overflow

A double is rounded to a mantissa of at most 53 bits, packed into 64 bits, and unpacked again
when it is used.  It becomes infinite where its exponent does not fit.

Rounding cuts bits off, adds one or not, and takes back a bit that this carries over.  So the
exponent of a rounded value is known from the size of what was rounded, and a value below
`(2 ^ 54 - 1) * 2 ^ 970` is not rounded up to one that overflows.
-/

namespace Plainspoken

namespace Number

open Float.Model Float.Model.UnpackedFloat

/-! ## Cutting off bits -/

/-- How many bits rounding cuts off. -/
def cutBits (mantissa : Nat) (exponent : Int) : Nat :=
  (max (totalExponent mantissa exponent - 53) (-1074) - exponent).toNat

theorem mantissa_shiftRight (extended : ExtendedMantissa) (count : Nat) :
    (extended >>> count).mantissa = extended.mantissa / 2 ^ count := by
  induction count with
  | zero => simp [HShiftRight.hShiftRight, Nat.repeat]
  | succ count ih =>
      change (extended >>> count).mantissa / 2 = _
      rw [ih, Nat.div_div_eq_div_mul, Nat.pow_succ]

/-- The bit behind the mantissa is the last one that was cut off. -/
theorem roundBit_shiftRight (extended : ExtendedMantissa) (count : Nat) :
    (extended >>> (count + 1)).roundBit = (extended.mantissa / 2 ^ count % 2 != 0) := by
  change ((extended >>> count).mantissa % 2 != 0) = _
  rw [mantissa_shiftRight]

theorem mantissa_ofMantissaAndAccuracy (mantissa : Nat) (accuracy : Accuracy) :
    (ExtendedMantissa.ofMantissaAndAccuracy mantissa accuracy).mantissa = mantissa := by
  cases accuracy with
  | exact => rfl
  | inexact order => cases order <;> rfl

/-- Rounding adds one or nothing, and one only if the bit behind the mantissa is set. -/
theorem roundedMantissa_cases (extended : ExtendedMantissa) :
    extended.roundedMantissa = extended.mantissa ∨
      extended.roundedMantissa = extended.mantissa + 1 ∧ extended.roundBit = true := by
  obtain ⟨mantissa, roundBit, stickyBit⟩ := extended
  cases roundBit <;> cases stickyBit
  · exact .inl rfl
  · exact .inl rfl
  · change mantissa + mantissa % 2 = mantissa ∨ mantissa + mantissa % 2 = mantissa + 1 ∧ _
    have := Nat.mod_two_eq_zero_or_one mantissa
    simp only [and_true]
    omega
  · exact .inr ⟨rfl, rfl⟩

/-- The mantissa and the exponent of what is left after bits have been cut off. -/
theorem shiftToTargetExponent_eq (mantissa : Nat) (exponent : Int) (accuracy : Accuracy) :
    shiftToTargetExponent Format.binary64 mantissa exponent accuracy =
      (ExtendedMantissa.ofMantissaAndAccuracy mantissa accuracy >>> cutBits mantissa exponent,
        exponent + cutBits mantissa exponent) :=
  rfl

theorem log2_le_of_lt {mantissa bits : Nat} (short : mantissa < 2 ^ (bits + 1)) :
    mantissa.log2 ≤ bits := by
  by_cases isZero : mantissa = 0
  · simp [isZero]
  · exact Nat.le_of_lt_succ ((Nat.log2_lt isZero).mpr short)

theorem least_le_exponent (mantissa : Nat) (exponent : Int) :
    -1074 ≤ exponent + cutBits mantissa exponent := by
  unfold cutBits
  omega

/-- At most 53 bits are left. -/
theorem div_cutBits_lt (mantissa : Nat) (exponent : Int) :
    mantissa / 2 ^ cutBits mantissa exponent < 2 ^ 53 := by
  have enough : mantissa.log2 + 1 ≤ 53 + cutBits mantissa exponent := by
    unfold cutBits totalExponent
    omega
  rw [Nat.div_lt_iff_lt_mul (Nat.two_pow_pos _), ← Nat.pow_add]
  calc
    mantissa < 2 ^ (mantissa.log2 + 1) := Nat.lt_log2_self
    _ ≤ 2 ^ (53 + cutBits mantissa exponent) := Nat.pow_le_pow_right (by decide) enough

/-- A mantissa of at most 53 bits is not cut. -/
theorem cutBits_of_lt {mantissa : Nat} {exponent : Int} (short : mantissa < 2 ^ 53)
    (least : -1074 ≤ exponent) : cutBits mantissa exponent = 0 := by
  have bits := log2_le_of_lt short
  unfold cutBits totalExponent
  omega

private theorem cutBits_of_carry {exponent : Int} (least : -1074 ≤ exponent) :
    cutBits (2 ^ 53) exponent = 1 := by
  unfold cutBits totalExponent
  rw [Nat.log2_two_pow]
  omega

/-- What rounding gives: nothing, what is left of the mantissa with perhaps one added, or a
mantissa with a single bit, which was carried over. -/
inductive Rounds (sign : Sign) (mantissa : Nat) (exponent : Int) : UnpackedFloat → Prop where
  | vanished (none : mantissa / 2 ^ cutBits mantissa exponent = 0) :
      Rounds sign mantissa exponent (.zero sign)
  | kept {rounded : Nat} (positive : 0 < rounded) (short : rounded < 2 ^ 53)
      (atLeast : mantissa / 2 ^ cutBits mantissa exponent ≤ rounded)
      (atMost : rounded ≤ mantissa / 2 ^ cutBits mantissa exponent + 1) :
      Rounds sign mantissa exponent
        (.finite sign rounded (exponent + cutBits mantissa exponent) positive)
  | carried (positive : 0 < 2 ^ 52) (full : mantissa / 2 ^ cutBits mantissa exponent + 1 = 2 ^ 53)
      (up : ∀ count, cutBits mantissa exponent = count + 1 → mantissa / 2 ^ count % 2 = 1) :
      Rounds sign mantissa exponent
        (.finite sign (2 ^ 52) (exponent + cutBits mantissa exponent + 1) positive)

/-- The mantissa that is left after bits have been cut off and one has been added or not. -/
theorem roundedMantissa_of_cutBits (mantissa : Nat) (exponent : Int) (accuracy : Accuracy) :
    let rounded := (ExtendedMantissa.ofMantissaAndAccuracy mantissa accuracy >>>
      cutBits mantissa exponent).roundedMantissa
    rounded = mantissa / 2 ^ cutBits mantissa exponent ∨
      rounded = mantissa / 2 ^ cutBits mantissa exponent + 1 ∧
        ∀ count, cutBits mantissa exponent = count + 1 → mantissa / 2 ^ count % 2 = 1 := by
  have choice := roundedMantissa_cases
    (ExtendedMantissa.ofMantissaAndAccuracy mantissa accuracy >>> cutBits mantissa exponent)
  rw [mantissa_shiftRight, mantissa_ofMantissaAndAccuracy] at choice
  refine choice.imp_right fun ⟨up, isSet⟩ => ⟨up, fun count isCount => ?_⟩
  rw [isCount, roundBit_shiftRight, mantissa_ofMantissaAndAccuracy] at isSet
  have isOdd : mantissa / 2 ^ count % 2 ≠ 0 := by simpa using isSet
  omega

/-- The value with a given mantissa, which may be zero. -/
def ofMantissa (sign : Sign) (mantissa : Nat) (exponent : Int) : UnpackedFloat :=
  if isZero : mantissa = 0 then .zero sign
  else .finite sign mantissa exponent (Nat.pos_of_ne_zero isZero)

theorem ofMantissa_of_pos {sign : Sign} {mantissa : Nat} {exponent : Int}
    (positive : 0 < mantissa) :
    ofMantissa sign mantissa exponent = .finite sign mantissa exponent positive :=
  dif_neg positive.ne'

private theorem eq_of_ofMantissa {sign sign' : Sign} {mantissa mantissa' : Nat}
    {exponent exponent' : Int} {positive : 0 < mantissa'}
    (same : ofMantissa sign mantissa exponent = .finite sign' mantissa' exponent' positive) :
    mantissa = mantissa' ∧ exponent = exponent' := by
  obtain isZero | positive := Nat.eq_zero_or_pos mantissa
  · rw [ofMantissa, dif_pos isZero] at same
    cases same
  · rw [ofMantissa_of_pos positive] at same
    cases same
    exact ⟨rfl, rfl⟩

/-- Rounding cuts bits off twice, the second time after one may have been added. -/
theorem roundWithAccuracy_eq (sign : Sign) (mantissa : Nat) (exponent : Int)
    (accuracy : Accuracy) :
    roundWithAccuracy Format.binary64 sign mantissa exponent accuracy =
      let rounded := (ExtendedMantissa.ofMantissaAndAccuracy mantissa accuracy >>>
        cutBits mantissa exponent).roundedMantissa
      let moved := exponent + cutBits mantissa exponent
      ofMantissa sign (rounded / 2 ^ cutBits rounded moved) (moved + cutBits rounded moved) := by
  have cut (rounded : Nat) (moved : Int) :
      (shiftToTargetExponent Format.binary64 rounded moved .exact).1.mantissa =
        rounded / 2 ^ cutBits rounded moved := by
    rw [shiftToTargetExponent_eq, mantissa_shiftRight, mantissa_ofMantissaAndAccuracy]
  dsimp only
  rw [← cut]
  rfl

theorem rounds_roundWithAccuracy (sign : Sign) (mantissa : Nat) (exponent : Int)
    (accuracy : Accuracy) :
    Rounds sign mantissa exponent
      (roundWithAccuracy Format.binary64 sign mantissa exponent accuracy) := by
  have bounded := div_cutBits_lt mantissa exponent
  have least := least_le_exponent mantissa exponent
  have choice := roundedMantissa_of_cutBits mantissa exponent accuracy
  rw [roundWithAccuracy_eq]
  dsimp only at choice ⊢
  generalize ExtendedMantissa.roundedMantissa _ = rounded at choice ⊢
  by_cases short : rounded < 2 ^ 53
  · rw [cutBits_of_lt short least, Nat.pow_zero, Nat.div_one, Int.natCast_zero, Int.add_zero]
    obtain isZero | positive := Nat.eq_zero_or_pos rounded
    · rw [isZero]
      obtain same | ⟨up, -⟩ := choice
      · exact .vanished (same.symm.trans isZero)
      · exact absurd (up.symm.trans isZero) (Nat.succ_ne_zero _)
    · rw [ofMantissa_of_pos positive]
      refine .kept positive short ?_ ?_
      · rcases choice with same | ⟨up, -⟩ <;> omega
      · rcases choice with same | ⟨up, -⟩ <;> omega
  · obtain same | ⟨up, isSet⟩ := choice
    · omega
    · have isFull : rounded = 2 ^ 53 := by omega
      subst isFull
      rw [cutBits_of_carry least]
      exact .carried (by decide) up.symm isSet

/-! ## Packing and unpacking -/

theorem toNat_implicit (mantissa : BitVec 52) :
    (1#1 ++ mantissa).toNat = 2 ^ 52 + mantissa.toNat := by
  rw [BitVec.toNat_append, ← Nat.shiftLeft_add_eq_or_of_lt mantissa.isLt]
  rfl

private theorem exponentBias_eq : Format.binary64.exponentBias = 1023 :=
  rfl

/-- What unpacking makes of the fields of a double. -/
theorem unpack_eq (bits : BitVec 64) :
    UnpackedFloat.unpack Format.binary64 bits =
      let sign := Sign.ofBitVec (@unpackSign Format.binary64 bits)
      let field := @unpackExponent Format.binary64 bits
      let fraction := @unpackMantissa Format.binary64 bits
      if field = -1#11 then if fraction = 0#52 then .infinity sign else .notANumber
      else if field = 0#11 then ofMantissa sign fraction.toNat (-1074)
      else ofMantissa sign (2 ^ 52 + fraction.toNat) (field.toNat - 1075) := by
  unfold UnpackedFloat.unpack
  dsimp only
  by_cases isFull : @unpackExponent Format.binary64 bits = -1#11
  · rw [if_pos isFull, if_pos isFull]
  rw [if_neg isFull, if_neg isFull]
  by_cases isZero : @unpackExponent Format.binary64 bits = 0#11
  · rw [if_pos isZero, if_pos isZero]
    by_cases none : @unpackMantissa Format.binary64 bits = 0#52
    · rw [dif_pos none, none]
      rfl
    · have positive : 0 < (@unpackMantissa Format.binary64 bits).toNat := by
        rwa [BitVec.toNat_pos, BitVec.pos_iff_ne_zero]
      rw [dif_neg none, ofMantissa_of_pos positive, isZero]
      rfl
  · rw [if_neg isZero, if_neg isZero]
    have positive : 0 < (1#1 ++ @unpackMantissa Format.binary64 bits).toNat := by
      rw [toNat_implicit]
      omega
    rw [← toNat_implicit, ofMantissa_of_pos positive]
    rfl

theorem unpack_packComponents (sign : Sign) (exponent : BitVec 11) (mantissa : BitVec 52) :
    UnpackedFloat.unpack Format.binary64 (packComponents Format.binary64 sign exponent mantissa) =
      if exponent = -1#11 then if mantissa = 0#52 then .infinity sign else .notANumber
      else if exponent = 0#11 then ofMantissa sign mantissa.toNat (-1074)
      else ofMantissa sign (2 ^ 52 + mantissa.toNat) (exponent.toNat - 1075) := by
  rw [unpack_eq, unpackMantissa_packComponents, unpackExponent_packComponents,
    unpackSign_packComponents, Sign.ofBitVec_toBitVec]

/-- What the mantissa and the exponent of an unpacked value are. -/
structure Fits (mantissa : Nat) (exponent : Int) : Prop where
  short : mantissa < 2 ^ 53
  least : -1074 ≤ exponent
  most : exponent ≤ 971
  normal : 2 ^ 52 ≤ mantissa ∨ exponent = -1074

/-- A value that was unpacked has the mantissa and the exponent of a double. -/
theorem fits_of_unpack {bits : BitVec 64} {sign : Sign} {mantissa : Nat} {exponent : Int}
    {positive : 0 < mantissa}
    (unpacked : UnpackedFloat.unpack Format.binary64 bits =
      .finite sign mantissa exponent positive) : Fits mantissa exponent := by
  have fraction := (@unpackMantissa Format.binary64 bits).isLt
  have field := (@unpackExponent Format.binary64 bits).isLt
  rw [unpack_eq] at unpacked
  dsimp only at unpacked fraction field
  by_cases isFull : @unpackExponent Format.binary64 bits = -1#11
  · rw [if_pos isFull] at unpacked
    by_cases none : @unpackMantissa Format.binary64 bits = 0#52
    · rw [if_pos none] at unpacked
      cases unpacked
    · rw [if_neg none] at unpacked
      cases unpacked
  have belowFull : (@unpackExponent Format.binary64 bits).toNat ≠ 2047 :=
    fun same => isFull (BitVec.eq_of_toNat_eq same)
  rw [if_neg isFull] at unpacked
  by_cases isZero : @unpackExponent Format.binary64 bits = 0#11
  · rw [if_pos isZero] at unpacked
    obtain ⟨rfl, rfl⟩ := eq_of_ofMantissa unpacked
    exact ⟨by omega, by decide, by decide, .inr rfl⟩
  · have aboveZero : (@unpackExponent Format.binary64 bits).toNat ≠ 0 :=
      fun same => isZero (BitVec.eq_of_toNat_eq same)
    rw [if_neg isZero] at unpacked
    obtain ⟨rfl, rfl⟩ := eq_of_ofMantissa unpacked
    exact ⟨by omega, by omega, by omega, .inl (by omega)⟩

/-- The fields that a rounded value is packed into. -/
theorem pack_finite_eq {sign : Sign} {mantissa : Nat} {exponent : Int}
    {positive : 0 < mantissa} (least : -1074 ≤ exponent) :
    UnpackedFloat.pack Format.binary64 (.finite sign mantissa exponent positive) =
      if 971 < exponent then packComponents Format.binary64 sign (-1#11) 0#52
      else packComponents Format.binary64 sign
        (if mantissa.log2 = 52 then BitVec.ofNat 11 (exponent + 1075).toNat else 0#11)
        (BitVec.ofNat 52 mantissa) := by
  have field : exponent + Format.binary64.exponentBias +
      Format.binary64.mantissaBitsWithoutImplicit = exponent + 1075 := by
    rw [exponentBias_eq, Int.add_assoc]
    rfl
  have overflow : 2 ^ Format.binary64.exponentBits ≤ (exponent + 1075).toNat + 1 ↔
      971 < exponent := by
    dsimp only
    omega
  have normal : mantissa.log2 + 1 = Format.binary64.mantissaBits ↔ mantissa.log2 = 52 := by
    change _ = 53 ↔ _
    omega
  unfold UnpackedFloat.pack
  rw [field]
  simp only [overflow, normal]
  split
  · rfl
  · split <;> rfl

/-- What is left of a value that was rounded and packed.  It overflows where its exponent does
not fit, and a mantissa that is not normal is taken to stand at the least exponent. -/
theorem unpack_pack_finite {sign : Sign} {mantissa : Nat} {exponent : Int}
    {positive : 0 < mantissa} (short : mantissa < 2 ^ 53) (least : -1074 ≤ exponent) :
    UnpackedFloat.unpack Format.binary64
        (UnpackedFloat.pack Format.binary64 (.finite sign mantissa exponent positive)) =
      if 971 < exponent then .infinity sign
      else .finite sign mantissa (if 2 ^ 52 ≤ mantissa then exponent else -1074) positive := by
  rw [pack_finite_eq least]
  split
  · exact unpack_packComponents sign _ _
  · rw [unpack_packComponents]
    split
    · next normal =>
      have bits := (Nat.log2_eq_iff positive.ne').mp normal
      have field : (BitVec.ofNat 11 (exponent + 1075).toNat).toNat = (exponent + 1075).toNat :=
        Nat.mod_eq_of_lt (by omega)
      have fraction : 2 ^ 52 + (BitVec.ofNat 52 mantissa).toNat = mantissa := by
        rw [BitVec.toNat_ofNat]
        omega
      rw [if_neg, if_neg, fraction, field, ofMantissa_of_pos positive, if_pos bits.1]
      · congr 1
        omega
      · intro isZero
        have := congrArg BitVec.toNat isZero
        rw [field, BitVec.toNat_ofNat] at this
        omega
      · intro isFull
        have : _ = 2047 := congrArg BitVec.toNat isFull
        rw [field] at this
        omega
    · next notNormal =>
      have small : mantissa < 2 ^ 52 := by
        have bits := log2_le_of_lt short
        exact (Nat.log2_lt positive.ne').mp (by omega)
      rw [if_neg (by decide), if_pos rfl, BitVec.toNat_ofNat, Nat.mod_eq_of_lt small,
        ofMantissa_of_pos positive, if_neg (by omega)]

/-- What is left of a value once it has been stored as a double. -/
def stored (value : UnpackedFloat) : UnpackedFloat :=
  (Float.Model.pack value).unpack

@[simp] theorem stored_zero (sign : Sign) : stored (.zero sign) = .zero sign := by
  cases sign <;> rfl

@[simp] theorem stored_infinity (sign : Sign) : stored (.infinity sign) = .infinity sign := by
  cases sign <;> rfl

theorem stored_finite {sign : Sign} {mantissa : Nat} {exponent : Int} {positive : 0 < mantissa}
    (short : mantissa < 2 ^ 53) (least : -1074 ≤ exponent) :
    stored (.finite sign mantissa exponent positive) =
      if 971 < exponent then .infinity sign
      else .finite sign mantissa (if 2 ^ 52 ≤ mantissa then exponent else -1074) positive :=
  unpack_pack_finite short least

theorem Fits.stored {sign : Sign} {mantissa : Nat} {exponent : Int} (positive : 0 < mantissa)
    (fits : Fits mantissa exponent) :
    stored (.finite sign mantissa exponent positive) =
      .finite sign mantissa exponent positive := by
  have place : (if 2 ^ 52 ≤ mantissa then exponent else -1074) = exponent := by
    have := fits.normal
    omega
  rw [stored_finite fits.short fits.least, place, if_neg (by have := fits.most; omega)]

/-! ## How large a rounded value is -/

/-- A value that rounding takes past the largest double. -/
def Overflows (mantissa : Nat) (exponent : Int) : Prop :=
  ∀ places : Nat, exponent + places = 970 → (2 ^ 54 - 1) * 2 ^ places ≤ mantissa

/-- A value with its highest bit at a place that no double has. -/
theorem overflows_of_totalExponent {mantissa : Nat} {exponent : Int}
    (large : 1025 ≤ totalExponent mantissa exponent) : Overflows mantissa exponent := by
  intro places reach
  unfold totalExponent at large
  have positive : 0 < mantissa := by
    refine Nat.pos_of_ne_zero fun isZero => ?_
    rw [isZero, Nat.log2_zero] at large
    omega
  calc
    (2 ^ 54 - 1) * 2 ^ places ≤ 2 ^ 54 * 2 ^ places := Nat.mul_le_mul_right _ (by decide)
    _ = 2 ^ (54 + places) := (Nat.pow_add ..).symm
    _ ≤ 2 ^ mantissa.log2 := Nat.pow_le_pow_right (by decide) (by omega)
    _ ≤ mantissa := Nat.log2_self_le positive.ne'

/-- A value whose bits all lie below that of the highest doubles does not overflow. -/
theorem not_overflows_of_totalExponent {mantissa : Nat} {exponent : Int}
    (small : totalExponent mantissa exponent ≤ 971) : ¬ Overflows mantissa exponent := by
  unfold totalExponent at small
  obtain ⟨places, reach⟩ : ∃ places : Nat, exponent + places = 970 :=
    ⟨(970 - exponent).toNat, by omega⟩
  intro overflows
  have large := overflows places reach
  have := calc
    mantissa < 2 ^ (mantissa.log2 + 1) := Nat.lt_log2_self
    _ ≤ 2 ^ (1 + places) := Nat.pow_le_pow_right (by decide) (by omega)
    _ = 2 * 2 ^ places := Nat.pow_add ..
    _ ≤ (2 ^ 54 - 1) * 2 ^ places := Nat.mul_le_mul_right _ (by decide)
  omega

/-- The exponent of a rounded value, unless it was so large from the start. -/
theorem exponent_of_cutBits (mantissa : Nat) (exponent : Int) :
    cutBits mantissa exponent = 0 ∧ max (totalExponent mantissa exponent - 53) (-1074) ≤ exponent ∨
      exponent + cutBits mantissa exponent =
        max (totalExponent mantissa exponent - 53) (-1074) := by
  unfold cutBits
  omega

private theorem overflows_of_exponent {mantissa : Nat} {exponent : Int}
    (large : 971 < exponent + cutBits mantissa exponent) : Overflows mantissa exponent := by
  obtain ⟨isUncut, -⟩ | isCut := exponent_of_cutBits mantissa exponent
  · intro places reach
    omega
  · exact overflows_of_totalExponent (by omega)

/-- A mantissa carried past the highest exponent was as large as one that overflows. -/
theorem overflows_of_carried {mantissa : Nat} {exponent : Int}
    (full : mantissa / 2 ^ cutBits mantissa exponent + 1 = 2 ^ 53)
    (up : ∀ count, cutBits mantissa exponent = count + 1 → mantissa / 2 ^ count % 2 = 1)
    (isLast : exponent + cutBits mantissa exponent = 971) : Overflows mantissa exponent := by
  intro places reach
  have count : cutBits mantissa exponent = places + 1 := by omega
  have isOdd := up places count
  rw [count, Nat.pow_succ, ← Nat.div_div_eq_div_mul] at full
  exact (Nat.le_div_iff_mul_le (Nat.two_pow_pos places)).mp (by omega)

/-- What is left of a rounded value: nothing, an infinity if it overflows, or a value whose
exponent is at most one above the one that its highest bit asks for. -/
inductive Leaves (sign : Sign) (mantissa : Nat) (exponent : Int) : UnpackedFloat → Prop where
  | nothing : Leaves sign mantissa exponent (.zero sign)
  | infinite (overflows : Overflows mantissa exponent) :
      Leaves sign mantissa exponent (.infinity sign)
  | finite {kept : Nat} {place : Int} {positive : 0 < kept}
      (bounded : place ≤ max (totalExponent mantissa exponent - 52) (-1073)) :
      Leaves sign mantissa exponent (.finite sign kept place positive)

theorem Rounds.leaves {sign : Sign} {mantissa : Nat} {exponent : Int} {value : UnpackedFloat}
    (rounds : Rounds sign mantissa exponent value) :
    Leaves sign mantissa exponent (stored value) := by
  have least := least_le_exponent mantissa exponent
  cases rounds with
  | vanished =>
    rw [stored_zero]
    exact .nothing
  | @kept rounded positive short atLeast atMost =>
    rw [stored_finite short least]
    split
    · next large => exact .infinite (overflows_of_exponent large)
    · refine .finite ?_
      split
      · next normal =>
        obtain ⟨isUncut, -⟩ | isCut := exponent_of_cutBits mantissa exponent
        · rw [isUncut, Nat.pow_zero, Nat.div_one] at atMost
          have bits : 51 ≤ mantissa.log2 := (Nat.le_log2 (by omega)).mpr (by omega)
          unfold totalExponent
          omega
        · omega
      · omega
  | carried positive full up =>
    rw [stored_finite (by decide) (by omega), if_pos (Nat.le_refl _)]
    split
    · next large =>
      by_cases isLast : exponent + cutBits mantissa exponent = 971
      · exact .infinite (overflows_of_carried full up isLast)
      · exact .infinite (overflows_of_exponent (by omega))
    · refine .finite ?_
      obtain ⟨isUncut, -⟩ | isCut := exponent_of_cutBits mantissa exponent
      · rw [isUncut, Nat.pow_zero, Nat.div_one] at full
        have bits : 52 ≤ mantissa.log2 := (Nat.le_log2 (by omega)).mpr (by omega)
        unfold totalExponent
        omega
      · omega

/-- A normal mantissa stays normal, at an exponent no lower than its highest bit asks for. -/
theorem Rounds.normal {sign : Sign} {mantissa : Nat} {exponent : Int} {value : UnpackedFloat}
    (rounds : Rounds sign mantissa exponent value) (normal : 2 ^ 52 ≤ mantissa)
    (high : -1021 ≤ totalExponent mantissa exponent) :
    stored value = .infinity sign ∨
      ∃ kept place positive, stored value = .finite sign kept place positive ∧ 2 ^ 52 ≤ kept ∧
        totalExponent mantissa exponent - 53 ≤ place := by
  have bits : 52 ≤ mantissa.log2 := (Nat.le_log2 (by omega)).mpr normal
  have count : cutBits mantissa exponent = mantissa.log2 - 52 := by
    unfold cutBits totalExponent at *
    omega
  have place : totalExponent mantissa exponent - 53 = exponent + cutBits mantissa exponent := by
    rw [count]
    unfold totalExponent
    omega
  have left : 2 ^ 52 ≤ mantissa / 2 ^ cutBits mantissa exponent := by
    rw [Nat.le_div_iff_mul_le (Nat.two_pow_pos _), ← Nat.pow_add, count, Nat.add_sub_cancel' bits]
    exact Nat.log2_self_le (by omega)
  have least := least_le_exponent mantissa exponent
  rw [place]
  cases rounds with
  | vanished none =>
    rw [none] at left
    omega
  | @kept rounded positive short atLeast atMost =>
    rw [stored_finite short least, if_pos (left.trans atLeast)]
    split
    · exact .inl rfl
    · exact .inr ⟨_, _, positive, rfl, left.trans atLeast, Int.le_refl _⟩
  | carried positive full up =>
    rw [stored_finite (by decide) (by omega), if_pos (Nat.le_refl _)]
    split
    · exact .inl rfl
    · exact .inr ⟨_, _, positive, rfl, Nat.le_refl _, by omega⟩

/-! ## Rounding a value with a short mantissa -/

theorem totalExponent_shiftLeft {mantissa : Nat} (exponent : Int) (positive : 0 < mantissa)
    (places : Nat) :
    totalExponent (mantissa <<< places) (exponent - places) = totalExponent mantissa exponent := by
  have bits : (mantissa <<< places).log2 = mantissa.log2 + places := by
    rw [Nat.shiftLeft_eq]
    induction places with
    | zero => rw [Nat.pow_zero, Nat.mul_one, Nat.add_zero]
    | succ places ih =>
      have apart : mantissa * 2 ^ places ≠ 0 := (Nat.mul_pos positive (Nat.two_pow_pos _)).ne'
      rw [Nat.pow_succ, ← Nat.mul_assoc, Nat.mul_comm _ 2, Nat.log2_two_mul apart, ih,
        Nat.add_assoc]
  unfold totalExponent
  rw [bits]
  omega

/-- Moving the mantissa up does not change whether a value overflows. -/
theorem Overflows.of_shiftLeft {mantissa places : Nat} {exponent : Int}
    (overflows : Overflows (mantissa <<< places) (exponent - places)) :
    Overflows mantissa exponent := by
  intro more reach
  have large := overflows (places + more) (by omega)
  rw [Nat.shiftLeft_eq, Nat.pow_add, Nat.mul_comm (2 ^ places), ← Nat.mul_assoc] at large
  exact Nat.le_of_mul_le_mul_right large (Nat.two_pow_pos places)

/-- What is left of a value that is first moved up, if its mantissa is short, and then rounded. -/
theorem leaves_round (sign : Sign) {mantissa : Nat} (exponent : Int) (positive : 0 < mantissa) :
    Leaves sign mantissa exponent
      (stored (UnpackedFloat.round Format.binary64 sign mantissa exponent)) := by
  unfold UnpackedFloat.round
  simp only [decreaseExponent]
  generalize (exponent - _).toNat = places
  have leaves := (rounds_roundWithAccuracy sign (mantissa <<< places) (exponent - places)
    .exact).leaves
  generalize stored _ = value at leaves
  cases leaves with
  | nothing => exact .nothing
  | infinite overflows => exact .infinite overflows.of_shiftLeft
  | finite bounded =>
    rw [totalExponent_shiftLeft exponent positive] at bounded
    exact .finite bounded

end Number

end Plainspoken
