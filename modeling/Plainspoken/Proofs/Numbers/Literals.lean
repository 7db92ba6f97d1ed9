import Plainspoken.Coercion
import Plainspoken.Proofs.Numbers.Rounding
import Plainspoken.Proofs.Syntax.Tokens

/-!
# Literals are finite

A literal that is read is never an infinity.  The digits before the point are checked against
the limit one by one, and a sum or product of values that are not negative can only become
infinite, never undefined, so the check finds it.  The digits after the point are fewer than
`2 ^ 64`, and the power of ten below them is at least one or infinite; their quotient is too
small to carry the whole part past the largest double.
-/

namespace Plainspoken

namespace Number

open Float.Model Float.Model.UnpackedFloat

/-! ## Operations on what doubles stand for -/

def unpacked (number : Float) : UnpackedFloat :=
  number.toModel.unpack

theorem isFinite_eq (number : Float) : number.isFinite = (unpacked number).isFinite :=
  rfl

private theorem unpacked_neg (number : Float) : unpacked (-number) = stored (unpacked number).neg :=
  rfl

theorem unpacked_add (left right : Float) :
    unpacked (left + right) = stored ((unpacked left).add Format.binary64 (unpacked right)) :=
  rfl

theorem unpacked_mul (left right : Float) :
    unpacked (left * right) = stored ((unpacked left).mul Format.binary64 (unpacked right)) :=
  rfl

theorem unpacked_div (left right : Float) :
    unpacked (left / right) = stored ((unpacked left).div Format.binary64 (unpacked right)) :=
  rfl

theorem lt_iff (left right : Float) :
    left < right ↔ (unpacked left).lt (unpacked right) = true :=
  decide_eq_true_iff

theorem fits_unpacked {number : Float} {sign : Sign} {mantissa : Nat} {exponent : Int}
    {positive : 0 < mantissa} (same : unpacked number = .finite sign mantissa exponent positive) :
    Fits mantissa exponent :=
  fits_of_unpack same

theorem isFinite_neg {number : Float} (isFinite : number.isFinite) : (-number).isFinite := by
  rw [isFinite_eq, unpacked_neg]
  rw [isFinite_eq] at isFinite
  cases same : unpacked number with
  | notANumber => rw [same] at isFinite; cases isFinite
  | infinity sign => rw [same] at isFinite; cases isFinite
  | zero sign => rw [UnpackedFloat.neg, stored_zero]; rfl
  | finite sign mantissa exponent positive =>
    rw [UnpackedFloat.neg, (fits_unpacked same).stored]
    rfl

/-! ## Values that are not negative -/

/-- A value that is not negative; it may be infinite, but is defined. -/
inductive NotNegative : UnpackedFloat → Prop where
  | zero : NotNegative (.zero .positive)
  | finite {mantissa : Nat} {exponent : Int} {positive : 0 < mantissa} :
      NotNegative (.finite .positive mantissa exponent positive)
  | infinity : NotNegative (.infinity .positive)

theorem Leaves.notNegative {mantissa : Nat} {exponent : Int} {value : UnpackedFloat}
    (leaves : Leaves .positive mantissa exponent value) : NotNegative value := by
  cases leaves with
  | nothing => exact .zero
  | infinite => exact .infinity
  | finite => exact .finite

/-- What is not negative and not above a finite bound is finite. -/
theorem NotNegative.isFinite_of_not_gt {number bound : Float}
    (notNegative : NotNegative (unpacked number)) (isFinite : bound.isFinite)
    (below : ¬ number > bound) : number.isFinite := by
  rw [isFinite_eq] at isFinite ⊢
  rw [gt_iff_lt, lt_iff] at below
  generalize unpacked number = value at *
  generalize unpacked bound = most at *
  cases notNegative with
  | zero => rfl
  | finite => rfl
  | infinity =>
    cases most with
    | notANumber => cases isFinite
    | infinity sign => cases isFinite
    | zero sign => exact absurd rfl below
    | finite sign => cases sign <;> exact absurd rfl below

theorem NotNegative.mul {left right : Float} (leftNotNegative : NotNegative (unpacked left))
    (rightNotNegative : NotNegative (unpacked right)) (leftFinite : left.isFinite)
    (rightFinite : right.isFinite) : NotNegative (unpacked (left * right)) := by
  rw [isFinite_eq] at leftFinite rightFinite
  rw [unpacked_mul]
  generalize unpacked left = first at *
  generalize unpacked right = second at *
  cases leftNotNegative with
  | zero =>
    cases rightNotNegative with
    | infinity => cases rightFinite
    | _ => exact stored_zero .positive ▸ .zero
  | infinity => cases leftFinite
  | finite =>
    cases rightNotNegative with
    | zero => exact stored_zero .positive ▸ .zero
    | infinity => cases rightFinite
    | finite => exact (rounds_roundWithAccuracy ..).leaves.notNegative

/-- The mantissa of a sum at the lower of two exponents. -/
def mantissaSum (left right : Nat) (leftExponent rightExponent : Int) : Nat :=
  left * 2 ^ (leftExponent - min leftExponent rightExponent).toNat +
    right * 2 ^ (rightExponent - min leftExponent rightExponent).toNat

theorem mantissaSum_pos {left : Nat} (positive : 0 < left) (right : Nat)
    (leftExponent rightExponent : Int) :
    0 < mantissaSum left right leftExponent rightExponent :=
  Nat.add_pos_left (Nat.mul_pos positive (Nat.two_pow_pos _)) _

theorem add_finite {left right : Nat} {leftExponent rightExponent : Int} (leftPositive : 0 < left)
    (rightPositive : 0 < right) :
    UnpackedFloat.add Format.binary64 (.finite .positive left leftExponent leftPositive)
        (.finite .positive right rightExponent rightPositive) =
      UnpackedFloat.round Format.binary64 .positive
        (mantissaSum left right leftExponent rightExponent) (min leftExponent rightExponent) := by
  have isPositive (first second : Nat) (positive : 0 < first) :
      compare ((first : Int) + second) 0 = .gt :=
    Int.compare_eq_gt.mpr (by omega)
  simp only [UnpackedFloat.add, decreaseExponent, Sign.apply, UnpackedFloat.normalize, Nat.shiftLeft_eq]
  rw [isPositive _ _ (Nat.mul_pos leftPositive (Nat.two_pow_pos _))]
  rfl

/-- A sum of two values that are not negative: one of them, or what is left of the sum of two
positive values. -/
inductive Adds (left right : UnpackedFloat) : UnpackedFloat → Prop where
  | left : Adds left right left
  | right : Adds left right right
  | both {leftMantissa rightMantissa : Nat} {leftExponent rightExponent : Int}
      {leftPositive : 0 < leftMantissa} {rightPositive : 0 < rightMantissa} {value : UnpackedFloat}
      (leftSame : left = .finite .positive leftMantissa leftExponent leftPositive)
      (rightSame : right = .finite .positive rightMantissa rightExponent rightPositive)
      (leaves : Leaves .positive (mantissaSum leftMantissa rightMantissa leftExponent rightExponent)
        (min leftExponent rightExponent) value) :
      Adds left right value

theorem NotNegative.adds {left right : Float} (leftNotNegative : NotNegative (unpacked left))
    (rightNotNegative : NotNegative (unpacked right)) :
    Adds (unpacked left) (unpacked right) (unpacked (left + right)) := by
  rw [unpacked_add]
  generalize leftSame : unpacked left = first at *
  generalize rightSame : unpacked right = second at *
  cases leftNotNegative with
  | zero =>
    cases rightNotNegative with
    | zero => exact stored_zero .positive ▸ .left
    | infinity => exact stored_infinity .positive ▸ .right
    | @finite mantissa exponent positive =>
      change Adds _ _ (stored (.finite .positive mantissa exponent positive))
      rw [(fits_unpacked rightSame).stored]
      exact .right
  | infinity => cases rightNotNegative <;> exact stored_infinity .positive ▸ .left
  | @finite mantissa exponent positive =>
    cases rightNotNegative with
    | zero =>
      change Adds _ _ (stored (.finite .positive mantissa exponent positive))
      rw [(fits_unpacked leftSame).stored]
      exact .left
    | infinity => exact stored_infinity .positive ▸ .right
    | finite =>
      rw [add_finite]
      exact .both rfl rfl (leaves_round _ _ (mantissaSum_pos positive _ _ _))

theorem NotNegative.add {left right : Float} (leftNotNegative : NotNegative (unpacked left))
    (rightNotNegative : NotNegative (unpacked right)) :
    NotNegative (unpacked (left + right)) := by
  have adds := leftNotNegative.adds rightNotNegative
  generalize unpacked (left + right) = value at adds ⊢
  cases adds with
  | left => exact leftNotNegative
  | right => exact rightNotNegative
  | both _ _ leaves => exact leaves.notNegative

/-! ## Values of moderate size -/

/-- A value that is not negative, with an exponent far below the highest one. -/
inductive Moderate (bound : Nat) : UnpackedFloat → Prop where
  | zero : Moderate bound (.zero .positive)
  | finite {mantissa : Nat} {exponent : Int} {positive : 0 < mantissa} (most : exponent ≤ bound) :
      Moderate bound (.finite .positive mantissa exponent positive)

theorem Leaves.moderate {mantissa bound : Nat} {exponent : Int} {value : UnpackedFloat}
    (leaves : Leaves .positive mantissa exponent value)
    (small : totalExponent mantissa exponent ≤ bound + 52) (low : bound ≤ 900) :
    Moderate bound value := by
  cases leaves with
  | nothing => exact .zero
  | infinite overflows => exact absurd overflows (not_overflows_of_totalExponent (by omega))
  | finite bounded => exact .finite (by omega)

/-- The largest double and a value of moderate size add up to what is still rounded down. -/
theorem not_overflows_add {left right : Nat} {leftExponent rightExponent : Int}
    (leftFits : Fits left leftExponent) (rightFits : Fits right rightExponent)
    (low : rightExponent ≤ 900) :
    ¬ Overflows (mantissaSum left right leftExponent rightExponent)
      (min leftExponent rightExponent) := by
  unfold mantissaSum
  intro overflows
  have leftShort := leftFits.short
  have leftMost := leftFits.most
  have rightShort := rightFits.short
  generalize leastSame : min leftExponent rightExponent = least at *
  obtain ⟨places, reach⟩ : ∃ places : Nat, least + places = 970 :=
    ⟨(970 - least).toNat, by omega⟩
  have large := overflows places reach
  have leftBound := calc
    left * 2 ^ (leftExponent - least).toNat ≤ (2 ^ 53 - 1) * 2 ^ (places + 1) :=
      Nat.mul_le_mul (by omega) (Nat.pow_le_pow_right (by decide) (by omega))
    _ = (2 ^ 54 - 2) * 2 ^ places := by
      rw [Nat.pow_succ]
      ring
  have rightBound := calc
    right * 2 ^ (rightExponent - least).toNat < 2 ^ 53 * 2 ^ (rightExponent - least).toNat :=
      Nat.mul_lt_mul_of_pos_right rightShort (Nat.two_pow_pos _)
    _ = 2 ^ (53 + (rightExponent - least).toNat) := (Nat.pow_add ..).symm
    _ ≤ 2 ^ places := Nat.pow_le_pow_right (by decide) (by omega)
  omega

theorem Moderate.notNegative {bound : Nat} {value : UnpackedFloat}
    (moderate : Moderate bound value) : NotNegative value := by
  cases moderate with
  | zero => exact .zero
  | finite => exact .finite

theorem Moderate.isFinite {bound : Nat} {value : UnpackedFloat} (moderate : Moderate bound value) :
    value.isFinite := by
  cases moderate <;> rfl

/-- Adding a value of moderate size to a finite one does not make it infinite. -/
theorem Moderate.isFinite_add {bound : Nat} {left right : Float}
    (moderate : Moderate bound (unpacked right)) (low : bound ≤ 900)
    (notNegative : NotNegative (unpacked left)) (isFinite : left.isFinite) :
    (left + right).isFinite := by
  have adds := notNegative.adds moderate.notNegative
  rw [isFinite_eq] at *
  generalize unpacked (left + right) = value at adds ⊢
  cases adds with
  | left => exact isFinite
  | right => exact moderate.isFinite
  | both leftSame rightSame leaves =>
    rw [rightSame] at moderate
    cases moderate with
    | finite most =>
      have inside := not_overflows_add (fits_unpacked leftSame) (fits_unpacked rightSame) (by omega)
      cases leaves with
      | nothing => rfl
      | infinite overflows => exact absurd overflows inside
      | finite => rfl

/-- Every natural number below `2 ^ 64` is of moderate size. -/
theorem moderate_doubleOf (number : Nat) : Moderate 12 (unpacked (Cursor.doubleOf number)) := by
  change Moderate 12
    (stored (UnpackedFloat.normalize Format.binary64 ((UInt64.ofNat number).toNat : Int) 0 .positive))
  have bounded : (UInt64.ofNat number).toNat < 2 ^ 64 := UInt64.toNat_lt _
  generalize (UInt64.ofNat number).toNat = natural at bounded ⊢
  unfold UnpackedFloat.normalize
  obtain isZero | positive := Nat.eq_zero_or_pos natural
  · subst isZero
    exact stored_zero .positive ▸ .zero
  · have isPositive : compare (natural : Int) 0 = .gt := Int.compare_eq_gt.mpr (by omega)
    rw [isPositive]
    refine (leaves_round .positive 0 positive).moderate ?_ (by decide)
    have bits := log2_le_of_lt bounded
    unfold totalExponent
    omega

/-! ## Powers of ten -/

/-- A value that is at least one, perhaps infinite. -/
inductive AtLeastOne : UnpackedFloat → Prop where
  | finite {mantissa : Nat} {exponent : Int} {positive : 0 < mantissa}
      (normal : 2 ^ 52 ≤ mantissa) (least : -52 ≤ exponent) :
      AtLeastOne (.finite .positive mantissa exponent positive)
  | infinity : AtLeastOne (.infinity .positive)

theorem AtLeastOne.mul {left right : Float} (leftLarge : AtLeastOne (unpacked left))
    (rightLarge : AtLeastOne (unpacked right)) : AtLeastOne (unpacked (left * right)) := by
  rw [unpacked_mul]
  generalize unpacked left = first at *
  generalize unpacked right = second at *
  cases leftLarge with
  | infinity => cases rightLarge <;> exact stored_infinity .positive ▸ .infinity
  | @finite leftMantissa leftExponent _ leftNormal leftLeast =>
    cases rightLarge with
    | infinity => exact stored_infinity .positive ▸ .infinity
    | @finite rightMantissa rightExponent _ rightNormal rightLeast =>
      have product : 2 ^ 104 ≤ leftMantissa * rightMantissa := by
        rw [Nat.pow_add 2 52 52]
        exact Nat.mul_le_mul leftNormal rightNormal
      have bits : 104 ≤ (leftMantissa * rightMantissa).log2 :=
        (Nat.le_log2 (by omega)).mpr product
      have high :
          1 ≤ totalExponent (leftMantissa * rightMantissa) (leftExponent + rightExponent) := by
        unfold totalExponent
        omega
      have rounds := rounds_roundWithAccuracy .positive (leftMantissa * rightMantissa)
        (leftExponent + rightExponent) .exact
      obtain isInfinite | ⟨kept, place, positive, same, normal, least⟩ :=
        rounds.normal (by omega) (by omega)
      · exact isInfinite ▸ .infinity
      · exact same ▸ .finite normal (by omega)

theorem atLeastOne_powerFrom (fuel exponent : Nat) {base product : Float}
    (baseLarge : AtLeastOne (unpacked base)) (productLarge : AtLeastOne (unpacked product)) :
    AtLeastOne (unpacked (powerFrom fuel exponent base product)) := by
  induction fuel generalizing exponent base product with
  | zero => exact productLarge
  | succ fuel ih =>
    have stepLarge :
        AtLeastOne (unpacked (if exponent % 2 = 1 then product * base else product)) := by
      split
      · exact productLarge.mul baseLarge
      · exact productLarge
    simp only [powerFrom]
    split
    · exact stepLarge
    · exact ih _ (baseLarge.mul baseLarge) stepLarge

theorem atLeastOne_power {base : Float} (large : AtLeastOne (unpacked base)) (exponent : Nat) :
    AtLeastOne (unpacked (power base exponent)) :=
  atLeastOne_powerFrom _ _ large (.finite (Nat.le_refl (2 ^ 52)) (Int.le_refl _))

theorem atLeastOne_ten : AtLeastOne (unpacked 10.0) := by
  have ten : unpacked 10.0 = .finite .positive 5629499534213120 (-49) (by decide) := rfl
  exact ten ▸ .finite (by decide) (by decide)

theorem AtLeastOne.notNegative {value : UnpackedFloat} (large : AtLeastOne value) :
    NotNegative value := by
  cases large with
  | finite => exact .finite
  | infinity => exact .infinity

/-- A quotient has no bits above those of the dividend, moved by the exponent of the divisor. -/
theorem totalExponent_divCore {left right : Nat} {leftExponent rightExponent : Int}
    (positive : 0 < left) :
    let quotient := divCore Format.binary64 left leftExponent right rightExponent
    totalExponent quotient.1 quotient.2.1 ≤ totalExponent left leftExponent - rightExponent := by
  simp only [divCore]
  generalize targetSame : min (leftExponent - rightExponent) _ = target
  generalize placesSame : (leftExponent - rightExponent - target).toNat = places
  have moved : target = leftExponent - rightExponent - places := by omega
  have bits : (left <<< places / right).log2 ≤ (left <<< places).log2 :=
    log2_le_of_lt ((Nat.div_le_self _ _).trans_lt Nat.lt_log2_self)
  have same := totalExponent_shiftLeft (leftExponent - rightExponent) positive places
  rw [moved]
  unfold totalExponent at same ⊢
  omega

/-- Dividing by a value of at least one keeps a value of moderate size. -/
theorem Moderate.div {bound : Nat} {left right : Float} (moderate : Moderate bound (unpacked left))
    (low : bound ≤ 800) (large : AtLeastOne (unpacked right)) :
    Moderate (bound + 53) (unpacked (left / right)) := by
  rw [unpacked_div]
  generalize leftSame : unpacked left = first at *
  generalize unpacked right = second at *
  cases moderate with
  | zero =>
    have isZero : UnpackedFloat.div Format.binary64 (.zero .positive) second = .zero .positive := by
      cases large <;> rfl
    rw [isZero, stored_zero]
    exact .zero
  | @finite leftMantissa leftExponent positive most =>
    cases large with
    | infinity => exact stored_zero .positive ▸ .zero
    | @finite rightMantissa rightExponent _ normal least =>
      have bits := log2_le_of_lt (fits_unpacked leftSame).short
      refine (rounds_roundWithAccuracy .positive _ _ _).leaves.moderate
        ((totalExponent_divCore positive).trans ?_) (by omega)
      unfold totalExponent
      omega

end Number

/-! ## Reading a literal -/

namespace Cursor

open Number

private theorem isFinite_of_wholePartFrom {limits : Limits} (bounded : limits.maxNumber.isFinite)
    {steps : Nat} {whole result : Float} {cursor rest : Cursor}
    (read : wholePartFrom limits steps whole cursor = .ok (result, rest))
    (notNegative : NotNegative (unpacked whole)) (isFinite : whole.isFinite) :
    NotNegative (unpacked result) ∧ result.isFinite := by
  induction steps generalizing whole cursor with
  | zero =>
    cases read
    exact ⟨notNegative, isFinite⟩
  | succ steps ih =>
    unfold wholePartFrom at read
    split at read
    · cases read
      exact ⟨notNegative, isFinite⟩
    · next digit _ =>
      have raised := notNegative.mul atLeastOne_ten.notNegative isFinite rfl
      have extended : NotNegative (unpacked (whole * 10.0 + doubleOf digit)) :=
        raised.add (moderate_doubleOf digit).notNegative
      simp only at read
      split at read
      · cases read
      · next below => exact ih read extended (extended.isFinite_of_not_gt bounded below)

/-- Adding the digits after the point keeps a finite number finite. -/
theorem isFinite_of_fractionAfter {limits : Limits} {whole result : Float} {cursor rest : Cursor}
    (read : fractionAfter limits whole cursor = .ok (some (result, rest)))
    (notNegative : NotNegative (unpacked whole)) (isFinite : whole.isFinite) :
    result.isFinite := by
  unfold fractionAfter at read
  split at read
  · simp only at read
    split at read
    · obtain ⟨run, -, isSum⟩ := except_bind_ok_iff.mp read
      cases isSum
      exact ((moderate_doubleOf run.value).div (by decide)
        (atLeastOne_power atLeastOne_ten run.count)).isFinite_add (by decide) notNegative isFinite
    · cases read
  · cases read

private theorem isFinite_of_otherBase {limits : Limits} {result : Float} {cursor rest : Cursor}
    (read : otherBase limits cursor = .ok (some (result, rest))) : result.isFinite := by
  unfold otherBase at read
  split at read
  · cases read
  · simp only at read
    split at read
    · obtain ⟨run, -, isValue⟩ := except_bind_ok_iff.mp read
      cases isValue
      exact (moderate_doubleOf run.value).isFinite
    · cases read

private theorem isFinite_of_afterLeadingZero {limits : Limits} {result : Float}
    {cursor rest : Cursor}
    (read : afterLeadingZero limits cursor = .ok (result, rest)) : result.isFinite := by
  unfold afterLeadingZero at read
  obtain ⟨base, baseRead, read⟩ := except_bind_ok_iff.mp read
  split at read
  · cases read
    exact isFinite_of_otherBase baseRead
  · obtain ⟨fraction, fractionRead, read⟩ := except_bind_ok_iff.mp read
    split at read
    · cases read
      exact isFinite_of_fractionAfter fractionRead .zero rfl
    · split at read
      · cases read
      · split at read
        · cases read
        · cases read
          rfl

private theorem isFinite_of_decimal {limits : Limits} (bounded : limits.maxNumber.isFinite)
    {result : Float} {cursor rest : Cursor} (read : decimal limits cursor = .ok (result, rest)) :
    result.isFinite := by
  unfold decimal at read
  obtain ⟨⟨whole, between⟩, wholeRead, read⟩ := except_bind_ok_iff.mp read
  obtain ⟨fraction, fractionRead, read⟩ := except_bind_ok_iff.mp read
  obtain ⟨notNegative, isFinite⟩ := isFinite_of_wholePartFrom bounded wholeRead .zero rfl
  cases fraction with
  | none =>
    cases read
    exact isFinite
  | some found =>
    cases read
    exact isFinite_of_fractionAfter fractionRead notNegative isFinite

/-- A literal that is read under a finite limit is finite. -/
theorem isFinite_of_numberLiteral {limits : Limits} (bounded : limits.maxNumber.isFinite)
    {result : Float} {cursor rest : Cursor}
    (read : numberLiteral limits cursor = .ok (some (result, rest))) : result.isFinite := by
  unfold numberLiteral at read
  split at read
  · obtain ⟨found, foundRead, same⟩ := except_map_ok_iff.mp read
    cases same
    exact isFinite_of_afterLeadingZero foundRead
  · split at read
    · obtain ⟨found, foundRead, same⟩ := except_map_ok_iff.mp read
      cases same
      exact isFinite_of_decimal bounded foundRead
    · cases read

end Cursor

/-! ## Coercion -/

theorem isFinite_maxNumber : Limits.standard.maxNumber.isFinite :=
  rfl

private theorem isFinite_of_leadingNumber {text : String} {number : Float}
    (read : leadingNumber? text = some number) : number.isFinite := by
  unfold leadingNumber? at read
  split at read
  · next found =>
    cases read
    exact Cursor.isFinite_of_numberLiteral isFinite_maxNumber found
  · cases read

/-- The number that a text begins with is finite. -/
theorem isFinite_of_numberOfText {text : String} {number : Float}
    (read : numberOfText? text = some number) : number.isFinite := by
  unfold numberOfText? at read
  split at read
  · obtain ⟨amount, amountRead, same⟩ := Option.map_eq_some_iff.mp read
    exact same ▸ Number.isFinite_neg (isFinite_of_leadingNumber amountRead)
  · exact isFinite_of_leadingNumber read

end Plainspoken
