import Plainspoken.Document.Basic

/-!
# Numbers in JSON documents

A number is wanted either as a natural number below `2 ^ 64`, which has to be
written without a sign, a fraction or an exponent, or as a double.

A double is formed from as many leading digits as stay below `2 ^ 64`, rounded
once, and then multiplied or divided by a rounded power of ten.
-/

namespace Plainspoken

namespace Document

namespace Numeral

def naturalOf (digits : List Nat) : Nat :=
  digits.foldl (fun value digit => value * 10 + digit) 0

/-- A number written as a natural number below `2 ^ 64`. -/
def asUnsigned? (numeral : Numeral) : Option Nat :=
  match numeral.negative, numeral.fraction, numeral.exponent with
  | false, none, none =>
      let value := naturalOf numeral.whole
      if value < UInt64.size then some value else none
  | _, _, _ => none

/-- Takes digits into a significand as long as it stays below `2 ^ 64`; also
gives the digits left over. -/
def significandFrom : Nat → List Nat → Nat × List Nat
  | significand, [] => (significand, [])
  | significand, digit :: digits =>
      if UInt64.size ≤ significand * 10 + digit then (significand, digit :: digits)
      else significandFrom (significand * 10 + digit) digits

def powerOfTen (exponent : Nat) : Float :=
  Float.ofScientific 1 false exponent

def largestPower : Nat := 308

/-- Divides by powers of ten, the largest one at a time, until the quotient is
zero or the exponent is spent. -/
def dividedBy : Nat → Float → Nat → Float
  | 0, value, _ => value
  | steps + 1, value, exponent =>
      if exponent ≤ largestPower then value / powerOfTen exponent
      else if value == 0.0 then value
      else dividedBy steps (value / powerOfTen largestPower) (exponent - largestPower)

/-- A significand times a power of ten; there is none beyond the doubles. -/
def scaled? (significand : Nat) (exponent : Int) : Option Float :=
  let value := (UInt64.ofNat significand).toFloat
  if exponent < 0 then some (dividedBy 4 value exponent.natAbs)
  else if exponent.toNat ≤ largestPower then
    let product := value * powerOfTen exponent.toNat
    if product.isInf then none else some product
  else if value == 0.0 then some value
  else none

/-- Exponents have at most this absolute value; larger ones overflow. -/
def largestExponent : Nat := 0x7FFFFFFF

def magnitude? (numeral : Numeral) : Option Float :=
  let (significand, dropped) := significandFrom 0 numeral.whole
  let fraction := numeral.fraction.getD []
  let (significand, ignored) := significandFrom significand fraction
  let exponent : Int := dropped.length - (fraction.length - ignored.length : Nat)
  match numeral.exponent with
  | none => scaled? significand exponent
  | some (negative, digits) =>
      let written := naturalOf digits
      if largestExponent < written then
        if significand = 0 ∨ negative then some 0.0 else none
      else scaled? significand (if negative then exponent - written else exponent + written)

/-- A number as a double; there is none beyond the doubles. -/
def asDouble? (numeral : Numeral) : Option Float :=
  numeral.magnitude?.map fun magnitude =>
    if numeral.negative then -magnitude else magnitude

end Numeral

/-- A document that is a natural number below `2 ^ 64`. -/
def asUnsigned? : Document → Option Nat
  | .numeral written => written.asUnsigned?
  | _ => none

def asDouble? : Document → Option Float
  | .numeral written => written.asDouble?
  | _ => none

end Document

end Plainspoken
