/-!
# Doubles as scaled integers

A finite double is an integer mantissa times a power of two, with a sign of
its own.  Exact questions about doubles (their shortest decimal text, their
remainders) are answered on that form with natural-number arithmetic.
-/

namespace Plainspoken

namespace Number

/-- The finite value `mantissa * 2 ^ exponent`, negated when `negative`. -/
structure Scaled where
  negative : Bool
  mantissa : Nat
  exponent : Int
  deriving DecidableEq

/-- What the bits of a double stand for. -/
inductive Shape where
  | undefined
  | infinite (negative : Bool)
  | finite (scaled : Scaled)
  deriving DecidableEq

/-- The least exponent of a finite double. -/
def leastExponent : Int := -1074

/-- The least mantissa of a double that is not subnormal, `2 ^ 52`. -/
def normalMantissa : Nat := 0x10000000000000

/-- What the sign of a double adds to its bits. -/
def signBit : Nat := 0x8000000000000000

/-- How many values the exponent field of a double has. -/
def exponentFields : Nat := 0x800

/-- Reads the sign, exponent and fraction fields of a double. -/
def shape (number : Float) : Shape :=
  let bits := number.toBits.toNat
  let negative := bits / signBit == 1
  let field := bits / normalMantissa % exponentFields
  let fraction := bits % normalMantissa
  if field + 1 = exponentFields then
    if fraction = 0 then .infinite negative else .undefined
  else if field = 0 then
    .finite ⟨negative, fraction, leastExponent⟩
  else
    .finite ⟨negative, normalMantissa + fraction, leastExponent + (field - 1 : Nat)⟩

/-- The bits of a finite value whose mantissa is below `2 ^ 53`, when a double
holds it exactly: the mantissa is moved up until it is normal or the exponent
is the least one. -/
def Scaled.toBits (scaled : Scaled) : Nat :=
  let sign := if scaled.negative then signBit else 0
  let room := (scaled.exponent - leastExponent).toNat
  let shift := min room (52 - Nat.log2 scaled.mantissa)
  let mantissa := scaled.mantissa * Nat.pow 2 shift
  let field := if mantissa < normalMantissa then 0 else room - shift + 1
  sign + field * normalMantissa + mantissa % normalMantissa

/-- The double that holds a finite value exactly. -/
def Scaled.toFloat (scaled : Scaled) : Float :=
  Float.ofBits (UInt64.ofNat scaled.toBits)

end Number

end Plainspoken
