import Plainspoken.Token
import Plainspoken.Tree.Statement

/-!
# Writing trees

Every tree is written as a sequence of lexemes.  An operand stands in parentheses
if it binds looser than its place requires, and nothing else does.  A loop over a
variable of its own is written as the block that it stands for, and the last
branch of a match as its default.

Trees that differ in positions only are the same tree `unplaced`.
-/

namespace Plainspoken

/-! ## Lexemes -/

namespace Lexeme

/-- Lexemes in parentheses, if they bind too loosely. -/
def enclosedIf (looser : Bool) (written : List Lexeme) : List Lexeme :=
  if looser then .mark .openParenthesis :: written ++ [.mark .closeParenthesis] else written

/-- Something that may be missing, with a lexeme in front of it. -/
def led (lead : Lexeme) : Option (List Lexeme) → List Lexeme
  | none => []
  | some written => lead :: written

/-- A list with a lexeme in front of it and commas in between. -/
def listed (lead : Lexeme) : List (List Lexeme) → List Lexeme
  | [] => []
  | first :: others => lead :: first ++ others.flatMap (.mark .comma :: ·)

end Lexeme

def UnaryOperator.lexeme : UnaryOperator → Lexeme
  | .negate => .mark .minus
  | .not => .keyword .notWord

def BinaryOperator.lexeme : BinaryOperator → Lexeme
  | .disjunction => .keyword .orWord
  | .conjunction => .keyword .andWord
  | .sameText => .mark .equalText
  | .differentText => .mark .notEqualText
  | .compare .equal => .mark .equal
  | .compare .notEqual => .mark .notEqual
  | .compare .greater => .mark .greater
  | .compare .greaterEqual => .mark .greaterEqual
  | .compare .less => .mark .less
  | .compare .lessEqual => .mark .lessEqual
  | .concatenate => .mark .doublePlus
  | .arithmetic .add => .mark .plus
  | .arithmetic .subtract => .mark .minus
  | .arithmetic .multiply => .mark .star
  | .arithmetic .divide => .mark .slash
  | .arithmetic .remainder => .mark .percent

def Value.lexeme : Value → Lexeme
  | .number amount => .number amount
  | .text content => .text content
  | .fact holds => .fact holds
  | .nothing => .keyword .noneWord

def ValueType.lexeme : ValueType → Lexeme
  | .number => .keyword .numberWord
  | .text => .keyword .textWord
  | .fact => .keyword .factWord
  | .nothing | .any => .keyword .nothingWord

/-! ## Expressions -/

/-- The level of the grammar that an operator belongs to. -/
def BinaryOperator.level : BinaryOperator → Nat
  | .disjunction => 3
  | .conjunction => 4
  | .sameText | .differentText | .compare .equal | .compare .notEqual => 5
  | .compare .greater | .compare .greaterEqual | .compare .less | .compare .lessEqual => 6
  | .concatenate | .arithmetic .add | .arithmetic .subtract => 7
  | .arithmetic .multiply | .arithmetic .divide | .arithmetic .remainder => 8

namespace Expression

/-- How tightly an expression binds: the level of the grammar that reads it,
counted from the loosest one. -/
def level : Expression → Nat
  | .assign _ _ _ => 0
  | .pipe _ _ _ _ => 1
  | .ternary _ _ _ _ => 2
  | .binary _ operator _ _ => operator.level
  | .unary _ _ _ => 9
  | .noneTest _ _ => 10
  | .literal _ _ | .identifier _ _ | .call _ _ _ => 11

/-- A pipe with `THEN` and without `OTHERWISE`, which would take one behind it for
its own. -/
def awaitsOtherwise : Expression → Bool
  | .pipe _ _ (some _) none => true
  | _ => false

open Lexeme in
mutual

/-- The lexemes of an expression.  To the left of an operator stand operands that
bind at least as tightly as it, and to its right those that bind tighter, as do
the operands of signs and of `??`, which are not repeated.  Others stand in
parentheses, and so does a pipe that would take an `OTHERWISE` behind it. -/
def write : Expression → List Lexeme
  | .literal _ value => [value.lexeme]
  | .identifier _ name => [.identifier name]
  | .unary _ operator operand => operator.lexeme :: enclosedIf (operand.level ≤ 9) operand.write
  | .binary _ operator left right =>
      enclosedIf (left.level < operator.level) left.write ++
        operator.lexeme :: enclosedIf (right.level ≤ operator.level) right.write
  | .ternary _ condition yes no =>
      enclosedIf (condition.level < 2) condition.write ++
        .mark .question :: enclosedIf (yes.level ≤ 2) yes.write ++
          led (.mark .colon) (writePart 2 no)
  | .pipe _ first success failure =>
      enclosedIf (first.level < 1 || success.isNone && first.awaitsOtherwise) first.write ++
        led (.keyword .thenWord) (writePart 1 success) ++
          led (.keyword .otherwiseWord) (writePart 1 failure)
  | .noneTest _ operand => enclosedIf (operand.level ≤ 10) operand.write ++ [.mark .doubleQuestion]
  | .assign _ target value =>
      enclosedIf (target.level ≤ 0) target.write ++ .keyword .isWord :: value.write
  | .call _ name arguments =>
      .keyword .callWord :: .identifier name ::
        listed (.keyword .withWord) (writeAll arguments) ++ [.keyword .nowWord]

/-- A part that may be missing, to the right of an operator of a level. -/
def writePart (level : Nat) : Option Expression → Option (List Lexeme)
  | none => none
  | some part => some (enclosedIf (part.level ≤ level) part.write)

def writeAll : List Expression → List (List Lexeme)
  | [] => []
  | first :: others => first.write :: writeAll others

end

mutual

/-- The expression without the positions of its nodes. -/
def unplaced : Expression → Expression
  | .literal _ value => .literal .beforeSource value
  | .identifier _ name => .identifier .beforeSource name
  | .unary _ operator operand => .unary .beforeSource operator operand.unplaced
  | .binary _ operator left right => .binary .beforeSource operator left.unplaced right.unplaced
  | .ternary _ condition yes no =>
      .ternary .beforeSource condition.unplaced yes.unplaced (unplacedPart no)
  | .pipe _ first success failure =>
      .pipe .beforeSource first.unplaced (unplacedPart success) (unplacedPart failure)
  | .noneTest _ operand => .noneTest .beforeSource operand.unplaced
  | .assign _ target value => .assign .beforeSource target.unplaced value.unplaced
  | .call _ name arguments => .call .beforeSource name (unplacedAll arguments)

def unplacedPart : Option Expression → Option Expression
  | none => none
  | some part => some part.unplaced

def unplacedAll : List Expression → List Expression
  | [] => []
  | first :: others => first.unplaced :: unplacedAll others

end

/-- An expression at a place that requires a level. -/
def operand (required : Nat) (expression : Expression) : List Lexeme :=
  Lexeme.enclosedIf (expression.level < required) expression.write

variable (expression : Expression)

theorem operand_of_lt {required : Nat} (looser : expression.level < required) :
    expression.operand required =
      .mark .openParenthesis :: expression.write ++ [.mark .closeParenthesis] := by
  simp [operand, Lexeme.enclosedIf, looser]

theorem operand_of_le {required : Nat} (tight : required ≤ expression.level) :
    expression.operand required = expression.write := by
  simp [operand, Lexeme.enclosedIf, Nat.not_lt.mpr tight]

@[simp]
theorem operand_zero : expression.operand 0 = expression.write :=
  expression.operand_of_le (Nat.zero_le _)

/-- A place requires no more of an expression of another level if it requires the
next one. -/
theorem operand_succ_of_ne {required : Nat} (other : expression.level ≠ required) :
    expression.operand (required + 1) = expression.operand required := by
  by_cases looser : expression.level < required
  · rw [operand_of_lt _ looser, operand_of_lt _ (Nat.lt_succ_of_lt looser)]
  · rw [operand_of_le _ (by omega), operand_of_le _ (by omega)]

theorem enclosedIf_le (required : Nat) :
    Lexeme.enclosedIf (expression.level ≤ required) expression.write =
      expression.operand (required + 1) := by
  simp only [operand, Nat.lt_succ_iff]

@[simp]
theorem writePart_eq (level : Nat) (part : Option Expression) :
    writePart level part = part.map (operand (level + 1)) := by
  cases part with
  | none => rw [writePart, Option.map_none]
  | some part => rw [writePart, Option.map_some, enclosedIf_le]

@[simp]
theorem writeAll_eq (expressions : List Expression) : writeAll expressions = expressions.map write := by
  induction expressions with
  | nil => rw [writeAll, List.map_nil]
  | cons first others ih => rw [writeAll, List.map_cons, ih]

@[simp]
theorem unplacedPart_eq (part : Option Expression) : unplacedPart part = part.map unplaced := by
  cases part with
  | none => rw [unplacedPart, Option.map_none]
  | some part => rw [unplacedPart, Option.map_some]

@[simp]
theorem unplacedAll_eq (expressions : List Expression) :
    unplacedAll expressions = expressions.map unplaced := by
  induction expressions with
  | nil => rw [unplacedAll, List.map_nil]
  | cons first others ih => rw [unplacedAll, List.map_cons, ih]

/-- The first expression of a pipe whose `THEN` part is given. -/
def pipeHead (success : Option Expression) (first : Expression) : List Lexeme :=
  Lexeme.enclosedIf (first.level < 1 || success.isNone && first.awaitsOtherwise) first.write

section Equations

variable (span : Span)

theorem write_unary (operator : UnaryOperator) (operand : Expression) :
    (Expression.unary span operator operand).write = operator.lexeme :: operand.operand 10 := by
  rw [write, enclosedIf_le]

theorem write_binary (operator : BinaryOperator) (left right : Expression) :
    (Expression.binary span operator left right).write =
      left.operand operator.level ++ operator.lexeme :: right.operand (operator.level + 1) := by
  rw [write, enclosedIf_le]
  rfl

theorem write_ternary (condition yes : Expression) (no : Option Expression) :
    (Expression.ternary span condition yes no).write =
      condition.operand 2 ++ .mark .question :: yes.operand 3 ++
        Lexeme.led (.mark .colon) (no.map (operand 3)) := by
  rw [write, enclosedIf_le, writePart_eq]
  rfl

theorem write_pipe (first : Expression) (success failure : Option Expression) :
    (Expression.pipe span first success failure).write =
      first.pipeHead success ++ Lexeme.led (.keyword .thenWord) (success.map (operand 2)) ++
        Lexeme.led (.keyword .otherwiseWord) (failure.map (operand 2)) := by
  rw [write, writePart_eq, writePart_eq, pipeHead]

theorem write_noneTest (operand : Expression) :
    (Expression.noneTest span operand).write =
      operand.operand 11 ++ [.mark .doubleQuestion] := by
  rw [write, enclosedIf_le]

theorem write_assign (target value : Expression) :
    (Expression.assign span target value).write =
      target.operand 1 ++ .keyword .isWord :: value.write := by
  rw [write, enclosedIf_le]

theorem write_call (name : String) (arguments : List Expression) :
    (Expression.call span name arguments).write =
      .keyword .callWord :: .identifier name ::
        Lexeme.listed (.keyword .withWord) (arguments.map write) ++ [.keyword .nowWord] := by
  rw [write, writeAll_eq]

end Equations

/-! Positions are not written. -/

theorem level_unplaced : expression.unplaced.level = expression.level := by
  cases expression <;> rfl

theorem awaitsOtherwise_unplaced : expression.unplaced.awaitsOtherwise = expression.awaitsOtherwise := by
  cases expression with
  | pipe span first success failure => cases success <;> cases failure <;> rfl
  | _ => rfl

mutual

theorem write_unplaced : (expression : Expression) → expression.unplaced.write = expression.write
  | .literal _ _ | .identifier _ _ => rfl
  | .unary _ _ operand | .noneTest _ operand => by
      simp only [unplaced, write, level_unplaced, write_unplaced operand]
  | .binary _ _ left right | .assign _ left right => by
      simp only [unplaced, write, level_unplaced, write_unplaced left, write_unplaced right]
  | .ternary _ condition yes no => by
      simp only [unplaced, write, level_unplaced, write_unplaced condition, write_unplaced yes,
        writePart_unplacedPart no]
  | .pipe _ first success failure => by
      have sameNone : (unplacedPart success).isNone = success.isNone := by
        cases success <;> rfl
      simp only [unplaced, write, level_unplaced, awaitsOtherwise_unplaced, write_unplaced first,
        writePart_unplacedPart success, writePart_unplacedPart failure, sameNone]
  | .call _ _ arguments => by simp only [unplaced, write, writeAll_unplacedAll arguments]

theorem writePart_unplacedPart :
    (part : Option Expression) → ∀ level, writePart level (unplacedPart part) = writePart level part
  | none, _ => rfl
  | some part, _ => by simp only [unplacedPart, writePart, level_unplaced, write_unplaced part]

theorem writeAll_unplacedAll :
    (expressions : List Expression) → writeAll (unplacedAll expressions) = writeAll expressions
  | [] => rfl
  | first :: others => by
      simp only [unplacedAll, writeAll, write_unplaced first, writeAll_unplacedAll others]

end

end Expression

/-! ## Declarations -/

def Declarator.write (declarator : Declarator) : List Lexeme :=
  (if declarator.isMutable then [.keyword .mutableWord] else []) ++
    [declarator.type.lexeme, .identifier declarator.name]

def Declarator.unplaced (declarator : Declarator) : Declarator :=
  { declarator with span := .beforeSource }

def writeName (overrides : Bool) (name : String) : List Lexeme :=
  (if overrides then [.keyword .overrideWord] else []) ++ [.identifier name]

def FunctionSignature.write (signature : FunctionSignature) : List Lexeme :=
  .keyword .functionWord :: writeName signature.overrides signature.name ++
    Lexeme.listed (.keyword .withWord) (signature.parameters.map Declarator.write) ++
      [.keyword .returnsWord, signature.returns.lexeme]

def FunctionSignature.unplaced (signature : FunctionSignature) : FunctionSignature :=
  { signature with
    span := .beforeSource
    parameters := signature.parameters.map Declarator.unplaced }

def PatternSignature.write (signature : PatternSignature) : List Lexeme :=
  .keyword .patternWord :: writeName signature.overrides signature.name ++
    .keyword .withWord :: signature.parameter.write

def PatternSignature.unplaced (signature : PatternSignature) : PatternSignature :=
  { signature with span := .beforeSource, parameter := signature.parameter.unplaced }

theorem Declarator.write_unplaced (declarator : Declarator) :
    declarator.unplaced.write = declarator.write :=
  rfl

theorem FunctionSignature.write_unplaced (signature : FunctionSignature) :
    signature.unplaced.write = signature.write := by
  have same : Declarator.write ∘ Declarator.unplaced = Declarator.write := rfl
  simp only [FunctionSignature.unplaced, FunctionSignature.write, List.map_map, same]

theorem PatternSignature.write_unplaced (signature : PatternSignature) :
    signature.unplaced.write = signature.write :=
  rfl

/-! ## Statements -/

namespace Statement

open Lexeme in
mutual

def write : Statement → List Lexeme
  | .expression content => content.write ++ [.mark .semicolon]
  | .variable declarator initial =>
      declarator.write ++ led (.keyword .isWord) (initial.map Expression.write) ++
        [.mark .semicolon]
  | .function signature body => signature.write ++ body.write
  | .pattern signature body => signature.write ++ body.writeBlock
  | .compound _ children => .keyword .beginWord :: writeAll children ++ [.keyword .endWord]
  | .conditional _ condition positive negative =>
      .keyword .ifWord :: condition.write ++ .keyword .doWord :: positive.write ++
        led (.keyword .elseWord) (writeElse negative)
  | .loop _ condition body =>
      .keyword .whileWord :: condition.write ++ .keyword .doWord :: body.write
  | .skip _ => [.keyword .skipWord, .mark .semicolon]
  | .stop _ => [.keyword .stopWord, .mark .semicolon]
  | .giveBack _ value =>
      .keyword .returnWord :: (value.map Expression.write).getD [] ++ [.mark .semicolon]
  | .matching _ subject body =>
      .keyword .matchWord :: .keyword .withWord :: subject.write ++ body.writeBlock
  | .empty _ => [.mark .semicolon]

def writeElse : Option Statement → Option (List Lexeme)
  | none => none
  | some statement => some statement.write

def writeAll : List Statement → List Lexeme
  | [] => []
  | first :: others => first.write ++ writeAll others

/-- The block of a match, or of a pattern, which may lack one. -/
def writeBlock : Statement → List Lexeme
  | .compound _ branches => .keyword .beginWord :: writeBranches branches ++ [.keyword .endWord]
  | _ => [.mark .semicolon]

/-- The branches of a match, the last one as the default. -/
def writeBranches : List Statement → List Lexeme
  | [] => []
  | first :: others =>
      if others.isEmpty then first.writeDefault else first.writeBranch ++ writeBranches others

def writeBranch : Statement → List Lexeme
  | .conditional _ condition chosen _ =>
      condition.write ++ .keyword .doWord :: chosen.write ++ [.mark .comma]
  | _ => []

def writeDefault : Statement → List Lexeme
  | .conditional _ _ chosen _ => .keyword .defaultWord :: chosen.write ++ [.mark .comma]
  | _ => []

end

mutual

/-- The statement without the positions of its nodes. -/
def unplaced : Statement → Statement
  | .expression content => .expression content.unplaced
  | .variable declarator initial =>
      .variable declarator.unplaced (initial.map Expression.unplaced)
  | .function signature body => .function signature.unplaced body.unplaced
  | .pattern signature body => .pattern signature.unplaced body.unplaced
  | .compound _ children => .compound .beforeSource (unplacedAll children)
  | .conditional _ condition positive negative =>
      .conditional .beforeSource condition.unplaced positive.unplaced (unplacedElse negative)
  | .loop _ condition body => .loop .beforeSource condition.unplaced body.unplaced
  | .skip _ => .skip .beforeSource
  | .stop _ => .stop .beforeSource
  | .giveBack _ value => .giveBack .beforeSource (value.map Expression.unplaced)
  | .matching _ subject body => .matching .beforeSource subject.unplaced body.unplaced
  | .empty _ => .empty .beforeSource

def unplacedElse : Option Statement → Option Statement
  | none => none
  | some statement => some statement.unplaced

def unplacedAll : List Statement → List Statement
  | [] => []
  | first :: others => first.unplaced :: unplacedAll others

end

@[simp]
theorem writeElse_eq (negative : Option Statement) : writeElse negative = negative.map write := by
  cases negative with
  | none => rw [writeElse, Option.map_none]
  | some negative => rw [writeElse, Option.map_some]

@[simp]
theorem writeAll_eq (statements : List Statement) : writeAll statements = statements.flatMap write := by
  induction statements with
  | nil => rw [writeAll, List.flatMap_nil]
  | cons first others ih => rw [writeAll, List.flatMap_cons, ih]

theorem writeBranches_concat (branches : List Statement) (last : Statement) :
    writeBranches (branches ++ [last]) = branches.flatMap writeBranch ++ last.writeDefault := by
  induction branches with
  | nil => simp [writeBranches]
  | cons first others ih => simp [writeBranches, ih]

@[simp]
theorem unplacedElse_eq (negative : Option Statement) :
    unplacedElse negative = negative.map unplaced := by
  cases negative with
  | none => rw [unplacedElse, Option.map_none]
  | some negative => rw [unplacedElse, Option.map_some]

@[simp]
theorem unplacedAll_eq (statements : List Statement) :
    unplacedAll statements = statements.map unplaced := by
  induction statements with
  | nil => rw [unplacedAll, List.map_nil]
  | cons first others ih => rw [unplacedAll, List.map_cons, ih]

theorem map_write_unplaced (part : Option Expression) :
    (part.map Expression.unplaced).map Expression.write = part.map Expression.write := by
  cases part with
  | none => rfl
  | some part => simp [Expression.write_unplaced]

mutual

theorem write_unplaced : (statement : Statement) → statement.unplaced.write = statement.write
  | .expression _ => by simp only [unplaced, write, Expression.write_unplaced]
  | .variable _ _ => by
      simp only [unplaced, write, Declarator.write_unplaced, map_write_unplaced]
  | .function _ body => by
      simp only [unplaced, write, FunctionSignature.write_unplaced, write_unplaced body]
  | .pattern _ body => by
      simp only [unplaced, write, PatternSignature.write_unplaced, writeBlock_unplaced body]
  | .compound _ children => by simp only [unplaced, write, writeAll_unplacedAll children]
  | .conditional _ _ positive negative => by
      simp only [unplaced, write, Expression.write_unplaced, write_unplaced positive,
        writeElse_unplacedElse negative]
  | .loop _ _ body => by
      simp only [unplaced, write, Expression.write_unplaced, write_unplaced body]
  | .giveBack _ _ => by simp only [unplaced, write, map_write_unplaced]
  | .matching _ _ body => by
      simp only [unplaced, write, Expression.write_unplaced, writeBlock_unplaced body]
  | .skip _ | .stop _ | .empty _ => rfl

theorem writeElse_unplacedElse :
    (negative : Option Statement) → writeElse (unplacedElse negative) = writeElse negative
  | none => rfl
  | some negative => by simp only [unplacedElse, writeElse, write_unplaced negative]

theorem writeAll_unplacedAll :
    (statements : List Statement) → writeAll (unplacedAll statements) = writeAll statements
  | [] => rfl
  | first :: others => by
      simp only [unplacedAll, writeAll, write_unplaced first, writeAll_unplacedAll others]

theorem writeBlock_unplaced :
    (statement : Statement) → statement.unplaced.writeBlock = statement.writeBlock
  | .compound _ branches => by simp only [unplaced, writeBlock, writeBranches_unplacedAll branches]
  | .expression _ | .variable _ _ | .function _ _ | .pattern _ _ | .conditional _ _ _ _
  | .loop _ _ _ | .skip _ | .stop _ | .giveBack _ _ | .matching _ _ _ | .empty _ => by
      simp only [unplaced, writeBlock]

theorem writeBranches_unplacedAll : (branches : List Statement) →
    writeBranches (unplacedAll branches) = writeBranches branches
  | [] => rfl
  | first :: others => by
      have sameEmpty : (unplacedAll others).isEmpty = others.isEmpty := by cases others <;> rfl
      simp only [unplacedAll, writeBranches, sameEmpty, writeBranch_unplaced first,
        writeDefault_unplaced first, writeBranches_unplacedAll others]

theorem writeBranch_unplaced :
    (statement : Statement) → statement.unplaced.writeBranch = statement.writeBranch
  | .conditional _ _ chosen _ => by
      simp only [unplaced, writeBranch, Expression.write_unplaced, write_unplaced chosen]
  | .expression _ | .variable _ _ | .function _ _ | .pattern _ _ | .compound _ _
  | .loop _ _ _ | .skip _ | .stop _ | .giveBack _ _ | .matching _ _ _ | .empty _ => by
      simp only [unplaced, writeBranch]

theorem writeDefault_unplaced :
    (statement : Statement) → statement.unplaced.writeDefault = statement.writeDefault
  | .conditional _ _ chosen _ => by simp only [unplaced, writeDefault, write_unplaced chosen]
  | .expression _ | .variable _ _ | .function _ _ | .pattern _ _ | .compound _ _
  | .loop _ _ _ | .skip _ | .stop _ | .giveBack _ _ | .matching _ _ _ | .empty _ => by
      simp only [unplaced, writeDefault]

end

/-- The lexemes of a program, which is a sequence without a block around it. -/
def unparse : Statement → List Lexeme
  | .compound _ children => writeAll children
  | other => other.write

theorem unparse_unplaced (program : Statement) : program.unplaced.unparse = program.unparse := by
  cases program with
  | compound span children => exact writeAll_unplacedAll children
  | _ => exact write_unplaced _

end Statement

end Plainspoken
