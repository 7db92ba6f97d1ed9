import Plainspoken.Source.NumberLiteral
import Plainspoken.Value

/-!
# Coercions

Operators and typed bindings turn values into the type they need.  A value
that cannot be turned into a type becomes nothing; no coercion fails.
-/

namespace Plainspoken

/-- The number that a text begins with; a minus sign may stand before it. -/
def numberOfText? (text : String) : Option Float :=
  match text.toList with
  | '-' :: digits => (leadingNumber? (String.ofList digits)).map (-·)
  | _ => leadingNumber? text

namespace Value

/-- A value as a number; facts are one and zero. -/
def asNumber? : Value → Option Float
  | .number amount => some amount
  | .text content => numberOfText? content
  | .fact holds => some (if holds then 1.0 else 0.0)
  | .nothing => none

def asText? : Value → Option String
  | .number amount => some (Number.text amount)
  | .text content => some content
  | .fact holds => some (factText holds)
  | .nothing => none

/-- A value as a fact: numbers other than zero and texts that are not empty
hold. -/
def asFact? : Value → Option Bool
  | .number amount => some (amount != 0.0)
  | .text content => some (!content.isEmpty)
  | .fact holds => some holds
  | .nothing => none

/-- A value turned into a declared type, or nothing. -/
def cast (value : Value) : ValueType → Value
  | .number => (value.asNumber?.map .number).getD .nothing
  | .text => (value.asText?.map .text).getD .nothing
  | .fact => (value.asFact?.map .fact).getD .nothing
  | .nothing | .any => .nothing

/-- A cast yields the type asked for, or nothing. -/
theorem cast_eq_nothing_or_type_eq (value : Value) (valueType : ValueType) :
    value.cast valueType = .nothing ∨ (value.cast valueType).type = valueType := by
  cases valueType with
  | number => cases found : value.asNumber? <;> simp [cast, found, type]
  | text => cases found : value.asText? <;> simp [cast, found, type]
  | fact => cases found : value.asFact? <;> simp [cast, found, type]
  | nothing => exact Or.inl rfl
  | any => exact Or.inl rfl

end Value

end Plainspoken
