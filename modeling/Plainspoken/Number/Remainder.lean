import Plainspoken.Number.Binary

/-!
# Remainder and powers of doubles

The remainder of a division that truncates toward zero is itself a double, so
it is computed exactly on scaled integers.  Powers are formed by repeated
squaring, each product rounded.
-/

namespace Plainspoken

namespace Number

/-- The remainder of two positive or zero scaled values brought to a common
exponent, with the sign of the dividend.  The divisor is not zero. -/
def Scaled.remainder (dividend divisor : Scaled) : Scaled :=
  let common := min dividend.exponent divisor.exponent
  let left := dividend.mantissa * Nat.pow 2 (dividend.exponent - common).toNat
  let right := divisor.mantissa * Nat.pow 2 (divisor.exponent - common).toNat
  ⟨dividend.negative, left % right, common⟩

/-- What remains of `dividend` after as many whole multiples of `divisor` as
fit toward zero have been taken away; it carries the sign of the dividend.
There is none for an infinite dividend or a zero divisor. -/
def remainder (dividend divisor : Float) : Float :=
  match shape dividend, shape divisor with
  | .finite left, .finite right =>
      if right.mantissa = 0 then 0.0 / 0.0 else (left.remainder right).toFloat
  | .finite _, .infinite _ => dividend
  | _, _ => 0.0 / 0.0

/-- One round of repeated squaring for every binary digit of the exponent,
least digit first; `fuel` bounds the number of digits. -/
def powerFrom : Nat → Nat → Float → Float → Float
  | 0, _, _, product => product
  | fuel + 1, exponent, base, product =>
      let product := if exponent % 2 = 1 then product * base else product
      if exponent / 2 = 0 then product
      else powerFrom fuel (exponent / 2) (base * base) product

/-- A natural power of a double by repeated squaring. -/
def power (base : Float) (exponent : Nat) : Float :=
  powerFrom (exponent + 1) exponent base 1.0

end Number

end Plainspoken
