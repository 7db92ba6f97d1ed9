import Plainspoken.Coercion
import Plainspoken.Diagnostic.Cause
import Plainspoken.Number.Remainder
import Plainspoken.Tree.Expression

/-!
# Operators on values

Operators coerce their operands and yield nothing where that is impossible.
Only arithmetic can fail: its results have to be finite.
-/

namespace Plainspoken

/-- The distance up to which two numbers count as equal. -/
def equalityTolerance : Float := 1e-9

namespace Comparison

/-- The answer of a comparison whose operands are below, equal to or above one
another. -/
def answer (comparison : Comparison) (below equal above : Bool) : Bool :=
  match comparison with
  | .equal => equal
  | .notEqual => !equal
  | .less => below
  | .lessEqual => below || equal
  | .greater => above
  | .greaterEqual => above || equal

/-- Compares numbers; those within the tolerance are equal. -/
def ofNumbers (comparison : Comparison) (left right : Float) : Bool :=
  comparison.answer (left < right) ((left - right).abs ≤ equalityTolerance) (right < left)

/-- Compares texts by their length. -/
def ofTexts (comparison : Comparison) (left right : String) : Bool :=
  comparison.answer (left.length < right.length) (left.length == right.length)
    (right.length < left.length)

/-- Compares facts; one that holds is above one that does not. -/
def ofFacts (comparison : Comparison) (left right : Bool) : Bool :=
  comparison.answer (!left && right) (left == right) (left && !right)

/-- Compares values as the type of the left one asks. -/
def ofValues (comparison : Comparison) (left right : Value) : Option Bool :=
  match left with
  | .number amount => right.asNumber?.map (comparison.ofNumbers amount)
  | .text content => right.asText?.map (comparison.ofTexts content)
  | .fact holds => right.asFact?.map (comparison.ofFacts holds)
  | .nothing => none

end Comparison

def ArithmeticOperator.apply (operator : ArithmeticOperator) (left right : Float) : Float :=
  match operator with
  | .add => left + right
  | .subtract => left - right
  | .multiply => left * right
  | .divide => left / right
  | .remainder => Number.remainder left right

/-- The fact that an optional truth is. -/
def Value.ofFact? (holds : Option Bool) : Value :=
  (holds.map .fact).getD .nothing

def UnaryOperator.apply (operator : UnaryOperator) (operand : Value) : Value :=
  match operator with
  | .negate => (operand.asNumber?.map fun amount => .number (-amount)).getD .nothing
  | .not => .ofFact? (operand.asFact?.map (!·))

/-- Combines two operands that are both there. -/
def combine {α β : Type} (operation : α → α → β) : Option α → Option α → Option β
  | some left, some right => some (operation left right)
  | _, _ => none

/-- The result of arithmetic on values; infinite and undefined results fail. -/
def ArithmeticOperator.applyToValues (operator : ArithmeticOperator) (left right : Value) :
    Except RuntimeCause Value :=
  match combine operator.apply left.asNumber? right.asNumber? with
  | none => .ok .nothing
  | some result =>
      if result.isFinite then .ok (.number result) else .error .divisionByZero

def BinaryOperator.apply (operator : BinaryOperator) (left right : Value) :
    Except RuntimeCause Value :=
  match operator with
  | .arithmetic operation => operation.applyToValues left right
  | .concatenate => .ok ((combine (· ++ ·) left.asText? right.asText?).elim .nothing .text)
  | .conjunction => .ok (.ofFact? (combine (· && ·) left.asFact? right.asFact?))
  | .disjunction => .ok (.ofFact? (combine (· || ·) left.asFact? right.asFact?))
  | .compare comparison => .ok (.ofFact? (comparison.ofValues left right))
  | .sameText => .ok (.ofFact? (combine (· == ·) left.asText? right.asText?))
  | .differentText => .ok (.ofFact? (combine (· != ·) left.asText? right.asText?))

end Plainspoken
