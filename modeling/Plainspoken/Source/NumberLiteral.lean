import Plainspoken.Character.Alphabetic
import Plainspoken.Diagnostic.Cause
import Plainspoken.Limits
import Plainspoken.Number.Remainder
import Plainspoken.Source.Cursor

/-!
# Number literals

A number is written in base ten, with an optional fraction, or after `0x`,
`0o` or `0b` in base sixteen, eight or two.  Separators may stand after any of
its characters.

The digits of other bases and those of a fraction form a natural number below
`2 ^ 64`; the whole part of a decimal is accumulated in doubles.
-/

namespace Plainspoken

namespace Cursor

def failure (cursor : Cursor) (cause : LexicalCause) : LexicalError where
  cause := cause
  span := cursor.position
  buffered := cursor.buffered

/-- The value of a character as a digit of a base up to sixteen. -/
def digitValue? (radix : Nat) (character : Char) : Option Nat :=
  let value? : Option Nat :=
    if character.isDigit then some (character.toNat - '0'.toNat)
    else if 'a' ≤ character ∧ character ≤ 'z' then
      some (character.toNat - 'a'.toNat + 10)
    else if 'A' ≤ character ∧ character ≤ 'Z' then
      some (character.toNat - 'A'.toNat + 10)
    else none
  value?.filter (· < radix)

/-- The double nearest to a natural number below `2 ^ 64`. -/
def doubleOf (number : Nat) : Float :=
  (UInt64.ofNat number).toFloat

/-- What a run of digits denotes, how many there were, and where it ended. -/
structure DigitRun where
  value : Nat
  count : Nat
  rest : Cursor

/-- Reads the digits of a base from the cursor on, at most a given number of
them.  Fails at the digit with which the value reaches `2 ^ 64` or passes the
limit. -/
def digitsFrom (limits : Limits) (radix : Nat) :
    Nat → Nat → Nat → Cursor → Except LexicalError DigitRun
  | 0, value, count, cursor => .ok ⟨value, count, cursor⟩
  | steps + 1, value, count, cursor =>
      match cursor.current.bind (digitValue? radix) with
      | none => .ok ⟨value, count, cursor⟩
      | some digit =>
          let extended := value * radix + digit
          if UInt64.size ≤ extended ∨ doubleOf extended > limits.maxNumber then
            .error (cursor.failure .numberOverflow)
          else
            digitsFrom limits radix steps extended (count + 1) cursor.nextInNumber

def digits (limits : Limits) (radix : Nat) (cursor : Cursor) :
    Except LexicalError DigitRun :=
  digitsFrom limits radix cursor.remaining.length 0 0 cursor

/-- Reads the whole part of a decimal, at most a given number of digits. -/
def wholePartFrom (limits : Limits) :
    Nat → Float → Cursor → Except LexicalError (Float × Cursor)
  | 0, whole, cursor => .ok (whole, cursor)
  | steps + 1, whole, cursor =>
      match cursor.current.bind (digitValue? 10) with
      | none => .ok (whole, cursor)
      | some digit =>
          let extended := whole * 10.0 + doubleOf digit
          if extended > limits.maxNumber then
            .error (cursor.failure .numberOverflow)
          else
            wholePartFrom limits steps extended cursor.nextInNumber

def wholePart (limits : Limits) (cursor : Cursor) :
    Except LexicalError (Float × Cursor) :=
  wholePartFrom limits cursor.remaining.length 0.0 cursor

/-- Reads a point and the digits after it and adds the fraction to the whole
part; nothing is read where there is no point. -/
def fractionAfter (limits : Limits) (whole : Float) (cursor : Cursor) :
    Except LexicalError (Option (Float × Cursor)) :=
  if cursor.isOn '.' then
    let cursor := cursor.nextInNumber
    if cursor.isOnClass Char.isDigit then do
      let run ← digits limits 10 cursor
      let fraction := doubleOf run.value / Number.power 10.0 run.count
      return some (whole + fraction, run.rest)
    else .error (cursor.failure .numberNotADecimal)
  else .ok none

/-- The base that a letter after a leading zero selects. -/
def radixOf? : Char → Option Nat
  | 'x' => some 16
  | 'o' => some 8
  | 'b' => some 2
  | _ => none

/-- Reads the letter of a base and the digits after it; nothing is read where
there is no such letter. -/
def otherBase (limits : Limits) (cursor : Cursor) :
    Except LexicalError (Option (Float × Cursor)) :=
  match cursor.current.bind radixOf? with
  | none => .ok none
  | some radix =>
      let cursor := cursor.nextInNumber
      if cursor.isOnClass fun character => (digitValue? radix character).isSome then do
        let run ← digits limits radix cursor
        return some (doubleOf run.value, run.rest)
      else .error (cursor.failure .numberNotInBase)

/-- Reads what may follow a leading zero. -/
def afterLeadingZero (limits : Limits) (cursor : Cursor) :
    Except LexicalError (Float × Cursor) := do
  if let some result ← otherBase limits cursor then
    return result
  if let some result ← fractionAfter limits 0.0 cursor then
    return result
  if cursor.isOnClass Char.isDigit then
    .error (cursor.failure .numberNotADecimal)
  else if cursor.isOnClass Character.isAlphabetic then
    .error (cursor.failure .numberUnknownBase)
  else
    return (0.0, cursor)

def decimal (limits : Limits) (cursor : Cursor) :
    Except LexicalError (Float × Cursor) := do
  let (whole, rest) ← wholePart limits cursor
  return (← fractionAfter limits whole rest).getD (whole, rest)

/-- Reads the number under the cursor, if a digit stands there. -/
def numberLiteral (limits : Limits) (cursor : Cursor) :
    Except LexicalError (Option (Float × Cursor)) :=
  if cursor.isOn '0' then
    some <$> afterLeadingZero limits cursor.nextInNumber
  else if cursor.isOnClass Char.isDigit then
    some <$> decimal limits cursor
  else .ok none

end Cursor

/-- The number that a text begins with, read as a literal under the standard
limits; whatever follows it is ignored. -/
def leadingNumber? (text : String) : Option Float :=
  match Cursor.numberLiteral .standard (Cursor.ofSource text) with
  | .ok (some (number, _)) => some number
  | _ => none

end Plainspoken
