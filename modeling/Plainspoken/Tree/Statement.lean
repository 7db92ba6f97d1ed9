import Plainspoken.Declarator
import Plainspoken.Tree.Expression

/-!
# Statement trees

Statements, and the declarations that stand among them.  A loop over a
variable of its own is a block with a declaration and a loop; the branches of
a match are conditionals in a block.
-/

namespace Plainspoken

/-- What a function declaration says before its body. -/
structure FunctionSignature where
  span : Span
  name : String
  /-- Whether it completes an earlier declaration in place. -/
  overrides : Bool
  parameters : List Declarator
  returns : ValueType
  deriving DecidableEq

/-- What a pattern declaration says before its body. -/
structure PatternSignature where
  span : Span
  name : String
  /-- Whether it completes an earlier declaration in place. -/
  overrides : Bool
  parameter : Declarator
  deriving DecidableEq

/-- A statement or declaration.  The jumps `skip`, `stop` and `giveBack` could share one kind of
node with an optional value.  As forms of their own, the first two have no place for a value,
and the grammar never gives them one. -/
inductive Statement where
  | expression (expression : Expression)
  | variable (declarator : Declarator) (initial : Option Expression)
  | function (signature : FunctionSignature) (body : Statement)
  | pattern (signature : PatternSignature) (body : Statement)
  | compound (span : Span) (children : List Statement)
  | conditional (span : Span) (condition : Expression) (positive : Statement)
      (negative : Option Statement)
  | loop (span : Span) (condition : Expression) (body : Statement)
  | skip (span : Span)
  | stop (span : Span)
  | giveBack (span : Span) (value : Option Expression)
  | matching (span : Span) (subject : Expression) (body : Statement)
  | empty (span : Span)

namespace Statement

def span : Statement → Span
  | .expression content => content.span
  | .variable declarator _ => declarator.span
  | .function signature _ => signature.span
  | .pattern signature _ => signature.span
  | .compound span _ | .conditional span _ _ _ | .loop span _ _ | .skip span
  | .stop span | .giveBack span _ | .matching span _ _ | .empty span => span

/-- Whether a statement does nothing.  As the body of a function or pattern it
marks a declaration that is completed later. -/
def isEmpty : Statement → Bool
  | .empty _ => true
  | _ => false

end Statement

end Plainspoken
