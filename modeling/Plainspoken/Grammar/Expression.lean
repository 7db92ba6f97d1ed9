import Plainspoken.Grammar.Rule
import Plainspoken.Tree.Expression

/-!
# The grammar of expressions

From the loosest to the tightest level:

* assignment: `pipe (IS pipe)*`, grouped to the right;
* pipe: `ternary (THEN ternary [OTHERWISE ternary] | OTHERWISE ternary)*`;
* ternary: `or (? or [: or])*`;
* the levels of binary operators, each grouped to the left;
* at most one sign or `NOT`;
* a literal, an identifier, a parenthesised expression or a call, and `??`.

All chains but assignments are grouped to the left.  `fuel` bounds the length
of chains; the rule for nested expressions is given from outside.
-/

namespace Plainspoken

namespace Grammar

open Rule

/-- The operators of one binary level, by the tokens that write them. -/
abbrev OperatorTable := List (TokenKind × BinaryOperator)

def disjunctions : OperatorTable :=
  [(.keyword .orWord, .disjunction)]

def conjunctions : OperatorTable :=
  [(.keyword .andWord, .conjunction)]

/-- The equalities `==`, `!=`, `===` and `!==`. -/
def equalities : OperatorTable :=
  [(.mark .equal, .compare .equal), (.mark .notEqual, .compare .notEqual),
    (.mark .equalText, .sameText), (.mark .notEqualText, .differentText)]

/-- The relations `>`, `>=`, `<` and `<=`. -/
def relations : OperatorTable :=
  [(.mark .greater, .compare .greater), (.mark .greaterEqual, .compare .greaterEqual),
    (.mark .less, .compare .less), (.mark .lessEqual, .compare .lessEqual)]

/-- The additive operators `+`, `-` and `++`. -/
def additions : OperatorTable :=
  [(.mark .plus, .arithmetic .add), (.mark .minus, .arithmetic .subtract),
    (.mark .doublePlus, .concatenate)]

/-- The multiplicative operators `*`, `/` and `%`. -/
def multiplications : OperatorTable :=
  [(.mark .star, .arithmetic .multiply), (.mark .slash, .arithmetic .divide),
    (.mark .percent, .arithmetic .remainder)]

/-- The binary levels, the tightest first. -/
def binaryLevels : List OperatorTable :=
  [multiplications, additions, relations, equalities, conjunctions, disjunctions]

/-- A rule for expressions that may not apply. -/
abbrev ExpressionRule := Rule (Option Expression)

section Levels

variable (fuel : Nat) (nested : ExpressionRule)

/-- Reads `, expression`. -/
def furtherArgument : ExpressionRule := do
  if ← accept (.mark .comma) then
    return some (← require .expression nested)
  else
    return none

/-- Reads `[WITH expression (, expression)*]`. -/
def callArguments : Rule (List Expression) := do
  if ← accept (.keyword .withWord) then
    let first ← require .expression nested
    return first :: (← many fuel (furtherArgument nested))
  else
    return []

/-- The rest of `CALL identifier [WITH arguments] NOW` after its first word. -/
def callFrom (span : Span) : Rule Expression := do
  let name ← identifier
  let arguments ← callArguments fuel nested
  expect (.keyword .nowWord)
  return .call span name arguments

/-- The rest of a parenthesised expression after its opening. -/
def parenthesised : Rule Expression := do
  let inner ← require .expression nested
  expect (.mark .closeParenthesis)
  return inner

/-- A literal, an identifier, a parenthesised expression or a call. -/
def primary : ExpressionRule := do
  let token ← current
  let literal (value : Value) : ExpressionRule := do
    advance
    return some (.literal token.span value)
  match token.lexeme with
  | .number amount => literal (.number amount)
  | .text content => literal (.text content)
  | .fact holds => literal (.fact holds)
  | .keyword .noneWord => literal .nothing
  | .identifier name =>
      advance
      return some (.identifier token.span name)
  | .mark .openParenthesis =>
      advance
      return some (← parenthesised nested)
  | .keyword .callWord =>
      advance
      return some (← callFrom fuel nested token.span)
  | _ => return none

/-- Reads `primary [??]`. -/
def noneTest : ExpressionRule := do
  let span ← position
  match ← primary fuel nested with
  | none => return none
  | some operand =>
      if ← accept (.mark .doubleQuestion) then
        return some (.noneTest span operand)
      else
        return some operand

/-- The operator that a token writes in front of an operand. -/
def unaryOperator? : Lexeme → Option UnaryOperator
  | .mark .minus => some .negate
  | .keyword .notWord => some .not
  | _ => none

/-- Reads `[- | NOT] noneTest`. -/
def unary : ExpressionRule := do
  let token ← current
  match unaryOperator? token.lexeme with
  | some operator =>
      advance
      let operand ← require .expression (noneTest fuel nested)
      return some (.unary token.span operator operand)
  | none => noneTest fuel nested

def operatorAndOperand (table : OperatorTable) (operand : ExpressionRule) :
    Rule (Option (BinaryOperator × Expression)) := do
  match table.lookup (← current).kind with
  | none => return none
  | some operator =>
      advance
      return some (operator, ← require .expression operand)

def joinBinary (left : Expression) (part : BinaryOperator × Expression) : Expression :=
  .binary left.span part.1 left part.2

/-- Reads `operand (operator operand)*` for the operators of one level. -/
def binaryLevel (operand : ExpressionRule) (table : OperatorTable) : ExpressionRule := do
  match ← operand with
  | none => return none
  | some first =>
      let parts ← many fuel (operatorAndOperand table operand)
      return some (parts.foldl joinBinary first)

/-- All binary levels, down to the signed operands. -/
def binary : ExpressionRule :=
  binaryLevels.foldl (binaryLevel fuel) (unary fuel nested)

/-- Reads `? or [: or]`. -/
def ternaryPart : Rule (Option (Expression × Option Expression)) := do
  if ← accept (.mark .question) then
    let yes ← require .expression (binary fuel nested)
    if ← accept (.mark .colon) then
      return some (yes, some (← require .expression (binary fuel nested)))
    else
      return some (yes, none)
  else
    return none

def joinTernary (condition : Expression) (part : Expression × Option Expression) :
    Expression :=
  .ternary condition.span condition part.1 part.2

/-- Reads `or (? or [: or])*`. -/
def ternary : ExpressionRule := do
  match ← binary fuel nested with
  | none => return none
  | some first =>
      let parts ← many fuel (ternaryPart fuel nested)
      return some (parts.foldl joinTernary first)

/-- Reads `THEN ternary [OTHERWISE ternary] | OTHERWISE ternary`. -/
def pipePart : Rule (Option (Option Expression × Option Expression)) := do
  if ← accept (.keyword .thenWord) then
    let success ← require .expression (ternary fuel nested)
    if ← accept (.keyword .otherwiseWord) then
      return some (some success, some (← require .expression (ternary fuel nested)))
    else
      return some (some success, none)
  else if ← accept (.keyword .otherwiseWord) then
    return some (none, some (← require .expression (ternary fuel nested)))
  else
    return none

def joinPipe (first : Expression) (part : Option Expression × Option Expression) :
    Expression :=
  .pipe first.span first part.1 part.2

/-- Reads `ternary (THEN ternary [OTHERWISE ternary] | OTHERWISE ternary)*`. -/
def pipe : ExpressionRule := do
  match ← ternary fuel nested with
  | none => return none
  | some first =>
      let parts ← many fuel (pipePart fuel nested)
      return some (parts.foldl joinPipe first)

/-- Reads `IS pipe`. -/
def assignedPart : ExpressionRule := do
  if ← accept (.keyword .isWord) then
    return some (← require .expression (pipe fuel nested))
  else
    return none

/-- Groups `first IS second IS ...` to the right.  The last expression starts
the assignment to the last target, and each target starts the assignment to
the target before it. -/
def joinAssignments : Expression → List Expression → Expression
  | first, [] => first
  | first, second :: rest =>
      .assign second.span first (joinAssignments second rest)

/-- Reads `pipe (IS pipe)*`. -/
def assignment : ExpressionRule := do
  match ← pipe fuel nested with
  | none => return none
  | some first =>
      return some (joinAssignments first (← many fuel (assignedPart fuel nested)))

end Levels

/-- An expression; `fuel` bounds the nesting and the length of chains. -/
def expression : Nat → ExpressionRule
  | 0 => return none
  | fuel + 1 => assignment (fuel + 1) (expression fuel)

def requiredExpression (fuel : Nat) : Rule Expression :=
  require .expression (expression fuel)

end Grammar

end Plainspoken
