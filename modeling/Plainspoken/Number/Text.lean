import Plainspoken.Number.Shortest

/-!
# Numbers as text

The language writes numbers positionally, never with an exponent: the fewest
digits that read back, padded with zeros on either side, no point after a
whole number, and a minus sign also before a negative zero.
-/

namespace Plainspoken

namespace Number

/-- Writes a decimal positionally, without needless zeros at its end. -/
def Decimal.positional (decimal : Decimal) : String :=
  let written := Nat.toDigits 10 decimal.digits
  if 0 ≤ decimal.exponent then
    String.ofList (written ++ List.replicate decimal.exponent.toNat '0')
  else
    let places := (-decimal.exponent).toNat
    let padded := List.replicate (places + 1 - written.length) '0' ++ written
    let whole := padded.take (padded.length - places)
    let fraction := (padded.drop (padded.length - places)).reverse
    let fraction := (fraction.dropWhile (· == '0')).reverse
    if fraction.isEmpty then String.ofList whole
    else String.ofList (whole ++ '.' :: fraction)

def text (number : Float) : String :=
  match shape number with
  | .undefined => "NaN"
  | .infinite negative => if negative then "-inf" else "inf"
  | .finite scaled =>
      let magnitude :=
        if scaled.mantissa = 0 then "0" else (shortest scaled).positional
      if scaled.negative then "-" ++ magnitude else magnitude

end Number

end Plainspoken
