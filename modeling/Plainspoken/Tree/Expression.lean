import Plainspoken.Span
import Plainspoken.Value

/-!
# Expression trees

An expression is a tree of operators, calls, assignments and pipes over
literals and identifiers.  Every node carries the position at which it starts.
-/

namespace Plainspoken

inductive UnaryOperator where
  | negate
  | not
  deriving DecidableEq

inductive ArithmeticOperator where
  | add
  | subtract
  | multiply
  | divide
  | remainder
  deriving DecidableEq

inductive Comparison where
  | equal
  | notEqual
  | less
  | lessEqual
  | greater
  | greaterEqual
  deriving DecidableEq

inductive BinaryOperator where
  | arithmetic (operator : ArithmeticOperator)
  | concatenate
  | conjunction
  | disjunction
  | compare (comparison : Comparison)
  | sameText
  | differentText
  deriving DecidableEq

inductive Expression where
  | literal (span : Span) (value : Value)
  | identifier (span : Span) (name : String)
  | unary (span : Span) (operator : UnaryOperator) (operand : Expression)
  | binary (span : Span) (operator : BinaryOperator) (left right : Expression)
  /-- The form `condition ? yes : no`, where the last part may be missing. -/
  | ternary (span : Span) (condition yes : Expression) (no : Option Expression)
  /-- The form `first THEN success OTHERWISE failure`, where one part may be
  missing. -/
  | pipe (span : Span) (first : Expression) (success failure : Option Expression)
  /-- The form `operand ??`: whether the operand is nothing. -/
  | noneTest (span : Span) (operand : Expression)
  /-- The form `target IS value`; whether the target can be assigned shows at
  run time. -/
  | assign (span : Span) (target value : Expression)
  | call (span : Span) (name : String) (arguments : List Expression)

namespace Expression

def span : Expression → Span
  | .literal span _ | .identifier span _ | .unary span _ _ | .binary span _ _ _
  | .ternary span _ _ _ | .pipe span _ _ _ | .noneTest span _ | .assign span _ _
  | .call span _ _ => span

/-- The name of an expression that is an identifier. -/
def name? : Expression → Option String
  | .identifier _ name => some name
  | _ => none

end Expression

end Plainspoken
