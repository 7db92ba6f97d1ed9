import Mathlib.Data.List.Chain
import Plainspoken.Proofs.Syntax.Expressions
import Plainspoken.Proofs.Syntax.Restoring
import Plainspoken.Proofs.Syntax.Unparsing

/-!
# Restoring expressions

A level of the grammar of expressions restores every operand that is written for
it.  If the operand binds looser, the tightest level restores it from its
parentheses; if it binds tighter, the next level does.  An operand of the level
itself is written as a chain of operands of the next level, grouped as the rule
groups them.
-/

namespace Plainspoken

open List (Forall₂)

/-- Expressions without a pipe that has neither part. -/
inductive Expression.Readable : Expression → Prop where
  | literal {span : Span} {value : Value} : Readable (.literal span value)
  | identifier {span : Span} {name : String} : Readable (.identifier span name)
  | unary {span : Span} {operator : UnaryOperator} {operand : Expression}
      (operandReadable : Readable operand) : Readable (.unary span operator operand)
  | binary {span : Span} {operator : BinaryOperator} {left right : Expression}
      (leftReadable : Readable left) (rightReadable : Readable right) :
      Readable (.binary span operator left right)
  | ternary {span : Span} {condition yes : Expression} {no : Option Expression}
      (conditionReadable : Readable condition) (yesReadable : Readable yes)
      (noReadable : ∀ part ∈ no, Readable part) : Readable (.ternary span condition yes no)
  | pipe {span : Span} {first : Expression} {success failure : Option Expression}
      (firstReadable : Readable first) (successReadable : ∀ part ∈ success, Readable part)
      (failureReadable : ∀ part ∈ failure, Readable part)
      (nonempty : success.isSome = true ∨ failure.isSome = true) :
      Readable (.pipe span first success failure)
  | noneTest {span : Span} {operand : Expression} (operandReadable : Readable operand) :
      Readable (.noneTest span operand)
  | assign {span : Span} {target value : Expression} (targetReadable : Readable target)
      (valueReadable : Readable value) : Readable (.assign span target value)
  | call {span : Span} {name : String} {arguments : List Expression}
      (argumentsReadable : ∀ argument ∈ arguments, Readable argument) :
      Readable (.call span name arguments)

/-- The result is what was written, up to positions. -/
def Expression.Restored (written result : Expression) : Prop :=
  result.unplaced = written.unplaced

namespace Syntax

open Rule

variable {span : Span} {bound fuel : Nat} {lexemes : List Lexeme}
  {stop stop' kinds : List TokenKind}

/-! ## First lexemes -/

theorem begins_enclosedIf (looser : Bool) (opens : TokenKind.mark .openParenthesis ∈ kinds)
    (begins : looser = false → Begins kinds lexemes) :
    Begins kinds (Lexeme.enclosedIf looser lexemes) := by
  cases looser with
  | true => exact ⟨_, _, rfl, opens⟩
  | false => exact begins rfl

theorem level_bounds (operator : BinaryOperator) : 3 ≤ operator.level ∧ operator.level ≤ 8 := by
  cases operator with
  | arithmetic operator => cases operator <;> decide
  | compare comparison => cases comparison <;> decide
  | _ => decide

theorem level_binary_ne {operator : BinaryOperator} {level : Nat} (outside : level < 3 ∨ 8 < level) :
    operator.level ≠ level := by
  have bounds := level_bounds operator
  omega

theorem kind_literal_mem (value : Value) : value.lexeme.kind ∈ literalStarts := by
  cases value <;> simp [Value.lexeme, Lexeme.kind, literalStarts]

theorem kind_unary_mem (operator : UnaryOperator) : operator.lexeme.kind ∈ signs := by
  cases operator <;> decide

theorem begins_operand_eleven (expression : Expression) :
    Begins operandStarts (expression.operand 11) := by
  refine begins_enclosedIf _ (by decide) fun tight => ?_
  cases expression with
  | literal span value =>
      exact ⟨_, _, rfl, List.mem_append_left _ (kind_literal_mem value)⟩
  | identifier span name => exact ⟨_, _, rfl, by simp [Lexeme.kind, operandStarts]⟩
  | call span name arguments =>
      rw [Expression.write_call]
      exact ⟨_, _, rfl, by decide⟩
  | binary span operator left right =>
      have bounds := level_bounds operator
      have tighter : ¬ operator.level < 11 := of_decide_eq_false tight
      omega
  | _ => simp [Expression.level] at tight

theorem begins_operand_ten (expression : Expression) :
    Begins operandStarts (expression.operand 10) := by
  by_cases isTest : expression.level = 10
  · cases expression with
    | noneTest span operand =>
        rw [Expression.operand_of_le _ (Nat.le_refl 10), Expression.write_noneTest]
        exact (begins_operand_eleven operand).append _
    | binary => exact absurd isTest (level_binary_ne (by decide))
    | _ => simp [Expression.level] at isTest
  · rw [← Expression.operand_succ_of_ne _ isTest]
    exact begins_operand_eleven expression

theorem begins_write : (expression : Expression) → Begins expressionStarts expression.write
  | .literal _ value =>
      ⟨_, _, rfl, List.mem_append_right _ (List.mem_append_left _ (kind_literal_mem value))⟩
  | .identifier _ _ => ⟨_, _, rfl, by simp [Lexeme.kind, expressionStarts, operandStarts]⟩
  | .unary _ operator _ => ⟨_, _, rfl, List.mem_append_left _ (kind_unary_mem operator)⟩
  | .binary _ _ first _ | .assign _ first _ | .noneTest _ first =>
      (begins_enclosedIf _ (by decide) fun _ => begins_write first).append _
  | .ternary _ first _ _ | .pipe _ first _ _ =>
      ((begins_enclosedIf _ (by decide) fun _ => begins_write first).append _).append _
  | .call _ _ _ => ⟨_, _, rfl, by decide⟩

/-! ## Operands -/

section Operands

variable {nested : Grammar.ExpressionRule}
  (restores : ∀ expression : Expression, expression.Readable →
    Restores span bound (Found expression.Restored) nested expression.write expressionStop)
  (enough : bound < fuel)

include restores enough in
theorem callArguments_restores {arguments : List Expression}
    (readable : ∀ argument ∈ arguments, argument.Readable) :
    Restores span bound (Forall₂ Expression.Restored arguments)
      (Grammar.callArguments fuel nested)
      (Lexeme.listed (.keyword .withWord) (arguments.map Expression.write))
      (expressionStop ++ [.mark .comma, .keyword .withWord]) := by
  cases arguments with
  | nil => exact .pass (.pure .nil) (by decide)
  | cons first others =>
      have further (argument : Expression) (isOther : argument ∈ others) :
          Restores span bound (Found argument.Restored) (Grammar.furtherArgument nested)
            (.mark .comma :: argument.write) expressionStop :=
        .acceptWithin rfl (.map (.require (restores argument
          (readable argument (List.mem_cons_of_mem first isOther)))) fun value same =>
            ⟨value, rfl, same⟩)
      have each : RestoresEach span bound (Grammar.furtherArgument nested)
          (fun argument => .mark .comma :: argument.write) Expression.Restored
          (expressionStop ++ [.mark .comma, .keyword .withWord]) others :=
        .of_begins further (fun argument _ => ⟨_, _, rfl, List.mem_singleton_self _⟩) (by decide)
          (by decide)
      have ended {rest : List Token}
          (stops : nextKind rest ∉ expressionStop ++ [.mark .comma, .keyword .withWord]) :
          Grammar.furtherArgument nested (.endOfSource span) rest = .ok (none, rest) := by
        have other : nextKind rest ≠ .mark .comma :=
          (ne_of_mem_of_not_mem (by decide) stops).symm
        exact bind_of_ok (accept_of_ne other)
      rw [List.map_cons, Lexeme.listed, List.flatMap_map, List.cons_append]
      refine .acceptWithin rfl (.bind (.require (restores first (readable first (by simp)))) ?_
        fun value same => .map (.many each ended (Nat.le_of_lt enough)) fun values areSame =>
          .cons same areSame)
      cases others with
      | nil => exact List.subset_append_left _ _
      | cons next others => exact (by decide : TokenKind.mark .comma ∉ expressionStop)

include restores enough in
theorem callFrom_restores (place : Span) {name : String} {arguments : List Expression}
    (readable : ∀ argument ∈ arguments, argument.Readable) :
    Restores span bound (Expression.call place name arguments).Restored
      (Grammar.callFrom fuel nested place)
      ([.identifier name] ++ (Lexeme.listed (.keyword .withWord) (arguments.map Expression.write) ++
        [.keyword .nowWord])) [] := by
  refine .bind .identifier .nil fun _ same => .bind (callArguments_restores restores enough readable)
    (by decide) fun values areSame => .map (.expect rfl) fun _ _ => ?_
  subst same
  have unplaced : values.map Expression.unplaced = arguments.map Expression.unplaced :=
    map_eq_of_forall₂ areSame
  simp [Expression.Restored, Expression.unplaced, unplaced]

include restores in
theorem parenthesised_restores {expression : Expression} (readable : expression.Readable) :
    Restores span bound expression.Restored (Grammar.parenthesised nested)
      (expression.write ++ [.mark .closeParenthesis]) [] :=
  .bind (.require (restores expression readable)) (by decide) fun _ same =>
    .map (.expect rfl) fun _ _ => same

include restores enough in
theorem primary_restores {expression : Expression} (readable : expression.Readable) :
    Restores span (bound + 1) (Found expression.Restored) (Grammar.primary fuel nested)
      (expression.operand 11) [] where
  restore {used rest} written stops short := by
    by_cases looser : expression.level < 11
    · rw [expression.operand_of_lt looser, List.cons_append] at written
      obtain ⟨token, after, rfl, opens, afterWritten⟩ := List.map_eq_cons_iff.mp written
      have isOpening : token.kind = .mark .openParenthesis := congrArg Lexeme.kind opens
      obtain ⟨value, same, read⟩ := (parenthesised_restores restores readable).restore
        afterWritten stops (Nat.lt_of_succ_lt_succ short)
      exact ⟨some value, ⟨value, rfl, same⟩,
        (primary_parenthesis isOpening _).trans (bind_of_ok read)⟩
    · rw [expression.operand_of_le (Nat.not_lt.mp looser)] at written
      cases readable with
      | @literal place value =>
          obtain ⟨⟨lexeme, place'⟩, after, rfl, isValue, afterWritten⟩ :=
            List.map_eq_cons_iff.mp written
          cases List.map_eq_nil_iff.mp afterWritten
          refine ⟨_, ⟨.literal place' value, rfl, rfl⟩, ?_⟩
          cases value <;> cases isValue <;> rfl
      | @identifier place name =>
          obtain ⟨⟨lexeme, place'⟩, after, rfl, isName, afterWritten⟩ :=
            List.map_eq_cons_iff.mp written
          cases List.map_eq_nil_iff.mp afterWritten
          cases isName
          exact ⟨_, ⟨.identifier place' name, rfl, rfl⟩, rfl⟩
      | @call place name arguments readable =>
          rw [Expression.write_call] at written
          obtain ⟨token, after, rfl, calls, afterWritten⟩ := List.map_eq_cons_iff.mp written
          have isCall : token.kind = .keyword .callWord := congrArg Lexeme.kind calls
          obtain ⟨value, same, read⟩ := (callFrom_restores restores enough token.span
            readable).restore afterWritten stops (Nat.lt_of_succ_lt_succ short)
          exact ⟨some value, ⟨value, rfl, same⟩, (primary_call isCall _).trans (bind_of_ok read)⟩
      | @binary place operator left right =>
          have bounds := level_bounds operator
          simp only [Expression.level] at looser
          omega
      | unary | ternary | pipe | noneTest | assign => simp [Expression.level] at looser

include restores enough in
theorem noneTest_restores {expression : Expression} (readable : expression.Readable) :
    Restores span (bound + 1) (Found expression.Restored) (Grammar.noneTest fuel nested)
      (expression.operand 10) operandStop := by
  by_cases isTest : expression.level = 10
  · cases readable with
    | @noneTest place operand readable =>
        rw [Expression.operand_of_le _ (Nat.le_refl 10), Expression.write_noneTest]
        refine .position fun place' => .bindFound (primary_restores restores enough readable) .nil
          fun value same => .acceptWithin rfl (.pure ⟨_, rfl, ?_⟩)
        exact congrArg (Expression.noneTest .beforeSource) same
    | binary => exact absurd isTest (level_binary_ne (by decide))
    | _ => simp [Expression.level] at isTest
  · rw [← expression.operand_succ_of_ne isTest]
    exact .position fun place => .bindFoundLast (primary_restores restores enough readable)
      (List.nil_subset _) fun value same => .pass (.pure ⟨value, rfl, same⟩) .last

private theorem unary_of_operator {token : Token} {operator : UnaryOperator}
    (isOperator : token.lexeme = operator.lexeme) (rest : List Token) :
    Grammar.unary fuel nested (.endOfSource span) (token :: rest) =
      (require .expression (Grammar.noneTest fuel nested) >>= fun operand =>
        pure (some (.unary token.span operator operand))) (.endOfSource span) rest := by
  obtain ⟨lexeme, place⟩ := token
  cases operator <;> cases isOperator <;> rfl

include restores enough in
theorem unary_restores {expression : Expression} (readable : expression.Readable) :
    Restores span (bound + 1) (Found expression.Restored) (Grammar.unary fuel nested)
      (expression.operand 9) operandStop := by
  by_cases isUnary : expression.level = 9
  · cases readable with
    | @unary place operator operand readable =>
        rw [Expression.operand_of_le _ (Nat.le_refl 9), Expression.write_unary]
        constructor
        intro used rest written stops short
        obtain ⟨token, after, rfl, isOperator, afterWritten⟩ := List.map_eq_cons_iff.mp written
        obtain ⟨value, same, read⟩ := (noneTest_restores restores enough readable).require.restore
          afterWritten stops (Nat.lt_of_succ_lt short)
        refine ⟨some (.unary token.span operator value), ⟨_, rfl, ?_⟩,
          (unary_of_operator isOperator _).trans (bind_of_ok read)⟩
        exact congrArg (Expression.unary .beforeSource operator) same
    | binary => exact absurd isUnary (level_binary_ne (by decide))
    | _ => simp [Expression.level] at isUnary
  · rw [← expression.operand_succ_of_ne isUnary]
    refine (noneTest_restores restores enough readable).of_eq fun written _ => ?_
    have starts := (begins_operand_ten expression).nextKind_mem written
    exact unary_of_other ((by decide : ∀ kind ∈ operandStarts, kind ∉ signs) _ (starts _))

end Operands

/-! ## Chains -/

/-- Some parts and how they are joined, written and told to be the same. -/
structure Joint (β : Type) where
  join : Expression → β → Expression
  write : β → List Lexeme
  Readable : β → Prop
  Restored : β → β → Prop
  joins : ∀ {left left' : Expression} {part part' : β}, left.Restored left' →
    Restored part part' → (join left part).Restored (join left' part')

/-- An expression at a place is written as an operand of the next level and parts
behind it, and joining these gives it back. -/
structure Joint.Chained {β : Type} (joint : Joint β) (required : Nat) (expression head : Expression)
    (parts : List β) : Prop where
  headReadable : head.Readable
  partsReadable : ∀ part ∈ parts, joint.Readable part
  written : expression.operand required =
    head.operand (required + 1) ++ parts.flatMap joint.write
  restored : expression.Restored (parts.foldl joint.join head)

section Chains

variable {β : Type} {joint : Joint β} {required : Nat} {expression left head : Expression}
  {part : β} {parts : List β} {operand : Grammar.ExpressionRule}

theorem Joint.Chained.alone (readable : expression.Readable)
    (other : expression.level ≠ required) : joint.Chained required expression expression [] where
  headReadable := readable
  partsReadable := by simp
  written := by simp [expression.operand_succ_of_ne other]
  restored := rfl

theorem Joint.Chained.concat (chained : joint.Chained required left head parts)
    (partReadable : joint.Readable part) (same : joint.Restored part part)
    (written : expression.operand required = left.operand required ++ joint.write part)
    (joined : expression.Restored (joint.join left part)) :
    joint.Chained required expression head (parts ++ [part]) where
  headReadable := chained.headReadable
  partsReadable other member := by
    rcases List.mem_append.mp member with before | last
    · exact chained.partsReadable other before
    · cases List.mem_singleton.mp last
      exact partReadable
  written := by simp [written, chained.written]
  restored := by
    rw [List.foldl_append, List.foldl_cons, List.foldl_nil]
    exact (joint.joins chained.restored same).trans joined

/-- Chains of the same shape are joined to the same tree. -/
theorem Joint.foldl_restored {parts' : List β} (same : Forall₂ joint.Restored parts parts')
    {first first' : Expression} (firstSame : first.Restored first') :
    (parts.foldl joint.join first).Restored (parts'.foldl joint.join first') := by
  induction same generalizing first first' with
  | nil => exact firstSame
  | cons partSame _ ih => exact ih (joint.joins firstSame partSame)

theorem Joint.Chained.restores (chained : joint.Chained required expression head parts)
    {next : Option Expression → Grammar.ExpressionRule} {rule : Rule (Option β)}
    (headRestores : Restores span bound (Found head.Restored) operand
      (head.operand (required + 1)) stop')
    (parted : Parted stop' (parts.flatMap joint.write) stop)
    (each : RestoresEach span bound rule joint.write joint.Restored stop parts)
    (declines : ∀ {rest}, nextKind rest ∉ stop →
      rule (.endOfSource span) rest = .ok (none, rest))
    (enough : bound ≤ fuel)
    (continues : ∀ first, next (some first) =
      many fuel rule >>= fun values => pure (some (values.foldl joint.join first))) :
    Restores span bound (Found expression.Restored) (operand >>= next)
      (expression.operand required) stop := by
  rw [chained.written]
  refine .bindFound headRestores parted fun first same => ?_
  rw [continues]
  refine .map (.many each declines enough) fun values areSame => ⟨_, rfl, ?_⟩
  exact (Joint.foldl_restored areSame same).trans chained.restored

end Chains

/-! ## Binary operators -/

section Binary

variable {operand : Grammar.ExpressionRule} {level : Nat} {table : Grammar.OperatorTable}

/-- The parts of a binary level: an operator and its right operand. -/
def binaryJoint (level : Nat) : Joint (BinaryOperator × Expression) where
  join := Grammar.joinBinary
  write part := part.1.lexeme :: part.2.operand (level + 1)
  Readable part := part.1.level = level ∧ part.2.Readable
  Restored part value := value.1 = part.1 ∧ part.2.Restored value.2
  joins := by
    rintro left left' ⟨operator, right⟩ ⟨_, right'⟩ leftSame ⟨rfl, rightSame⟩
    exact congrArg₂ (Expression.binary .beforeSource _) leftSame rightSame

private theorem exists_binaryChain (isBinary : 3 ≤ level ∧ level ≤ 8) {expression : Expression}
    (readable : expression.Readable) :
    ∃ head parts, (binaryJoint level).Chained level expression head parts := by
  by_cases sameLevel : expression.level = level
  · induction readable with
    | @binary place operator left right leftReadable rightReadable ih =>
        have operatorLevel : operator.level = level := sameLevel
        obtain ⟨head, parts, chained⟩ :
            ∃ head parts, (binaryJoint level).Chained level left head parts := by
          by_cases leftLevel : left.level = level
          · exact ih leftLevel
          · exact ⟨left, [], .alone leftReadable leftLevel⟩
        refine ⟨head, parts ++ [(operator, right)],
          chained.concat ⟨operatorLevel, rightReadable⟩ ⟨rfl, rfl⟩ ?_ rfl⟩
        rw [Expression.operand_of_le _ (Nat.le_of_eq sameLevel.symm), Expression.write_binary,
          operatorLevel]
        rfl
    | _ => simp only [Expression.level] at sameLevel; omega
  · exact ⟨expression, [], .alone readable sameLevel⟩

private theorem operatorAndOperand_eq (tokens : List Token) :
    Grammar.operatorAndOperand table operand (.endOfSource span) tokens =
      (table.lookup (nextKind tokens)).elim (.ok (none, tokens)) fun operator =>
        (require .expression operand >>= fun right => pure (some (operator, right)))
          (.endOfSource span) tokens.tail := by
  unfold Grammar.operatorAndOperand
  rw [bind_of_ok (current_eq tokens), kind_headD]
  cases table.lookup (nextKind tokens) <;> rfl

/-- One level of binary operators. -/
theorem binaryLevel_restores
    (restores : ∀ expression : Expression, expression.Readable →
      Restores span bound (Found expression.Restored) operand (expression.operand (level + 1)) stop)
    (isBinary : 3 ≤ level ∧ level ≤ 8)
    (known : ∀ operator : BinaryOperator, operator.level = level →
      table.lookup operator.lexeme.kind = some operator)
    (apart : ∀ kind ∈ table.map Prod.fst, kind ∉ stop) (enough : bound ≤ fuel)
    (expression : Expression) (readable : expression.Readable) :
    Restores span bound (Found expression.Restored) (Grammar.binaryLevel fuel operand table)
      (expression.operand level) (stop ++ table.map Prod.fst) := by
  obtain ⟨head, parts, chained⟩ := exists_binaryChain isBinary readable
  have begins (part : BinaryOperator × Expression) (member : part ∈ parts) :
      Begins (table.map Prod.fst) ((binaryJoint level).write part) := by
    refine ⟨_, _, rfl, ?_⟩
    rw [← lookup_isSome_iff, known part.1 (chained.partsReadable part member).1]
    rfl
  have restoresPart (part : BinaryOperator × Expression) (member : part ∈ parts) :
      Restores span bound (Found ((binaryJoint level).Restored part))
        (Grammar.operatorAndOperand table operand) ((binaryJoint level).write part) stop := by
    obtain ⟨isOperator, readable⟩ := chained.partsReadable part member
    constructor
    intro used rest written stops short
    obtain ⟨token, after, rfl, isLexeme, afterWritten⟩ := List.map_eq_cons_iff.mp written
    have found : table.lookup (nextKind (token :: (after ++ rest))) = some part.1 := by
      rw [nextKind_cons, Token.kind, isLexeme, known part.1 isOperator]
    obtain ⟨value, same, read⟩ := (restores part.2 readable).require.restore afterWritten stops
      (Nat.lt_of_succ_lt short)
    refine ⟨some (part.1, value), ⟨_, rfl, rfl, same⟩, ?_⟩
    rw [List.cons_append, operatorAndOperand_eq, found]
    exact bind_of_ok read
  have each := RestoresEach.of_begins restoresPart begins apart
    (List.subset_append_left stop (table.map Prod.fst))
  refine chained.restores (restores head chained.headReadable) ?_ each ?_ enough fun _ => rfl
  · cases parts with
    | nil => exact List.subset_append_left _ _
    | cons first others =>
        rw [List.flatMap_cons]
        exact ((begins first List.mem_cons_self).append _).parted apart
  · intro rest stops
    have unknown : table.lookup (nextKind rest) = none := by
      rw [← Option.not_isSome_iff_eq_none, lookup_isSome_iff]
      exact fun isKey => stops (List.mem_append_right _ isKey)
    rw [operatorAndOperand_eq, unknown]
    rfl

end Binary

/-! ## Levels -/

section Levels

variable {nested : Grammar.ExpressionRule}
  (restores : ∀ expression : Expression, expression.Readable →
    Restores span bound (Found expression.Restored) nested expression.write expressionStop)
  (enough : bound < fuel)

/-- Every operator is known at its level. -/
theorem lookup_operator (operator : BinaryOperator) :
    (match operator.level with
      | 3 => Grammar.disjunctions
      | 4 => Grammar.conjunctions
      | 5 => Grammar.equalities
      | 6 => Grammar.relations
      | 7 => Grammar.additions
      | _ => Grammar.multiplications).lookup operator.lexeme.kind = some operator := by
  cases operator with
  | arithmetic operator => cases operator <;> rfl
  | compare comparison => cases comparison <;> rfl
  | _ => rfl

include restores enough in
theorem binary_restores (expression : Expression) (readable : expression.Readable) :
    Restores span (bound + 1) (Found expression.Restored) (Grammar.binary fuel nested)
      (expression.operand 3) disjunctionStop := by
  have known (level : Nat) (operator : BinaryOperator) (same : operator.level = level) :=
    same ▸ lookup_operator operator
  have unary := fun expression readable =>
    @unary_restores span bound fuel nested restores enough expression readable
  have multiplication := binaryLevel_restores unary (by decide) (known 8) (by decide) enough
  have addition := binaryLevel_restores multiplication (by decide) (known 7) (by decide) enough
  have relation := binaryLevel_restores addition (by decide) (known 6) (by decide) enough
  have equality := binaryLevel_restores relation (by decide) (known 5) (by decide) enough
  have conjunction := binaryLevel_restores equality (by decide) (known 4) (by decide) enough
  exact binaryLevel_restores conjunction (by decide) (known 3) (by decide) enough expression
    readable

def ternaryJoint : Joint (Expression × Option Expression) where
  join := Grammar.joinTernary
  write part := .mark .question :: part.1.operand 3 ++
    Lexeme.led (.mark .colon) (part.2.map (Expression.operand 3))
  Readable part := part.1.Readable ∧ ∀ no ∈ part.2, no.Readable
  Restored part value := part.1.Restored value.1 ∧
    value.2.map Expression.unplaced = part.2.map Expression.unplaced
  joins := by
    rintro left left' ⟨yes, no⟩ ⟨yes', no'⟩ leftSame ⟨yesSame, noSame⟩
    have leftUnplaced : left'.unplaced = left.unplaced := leftSame
    have yesUnplaced : yes'.unplaced = yes.unplaced := yesSame
    simp [Expression.Restored, Grammar.joinTernary, Expression.unplaced, leftUnplaced,
      yesUnplaced, noSame]

private theorem exists_ternaryChain {expression : Expression} (readable : expression.Readable) :
    ∃ head parts, ternaryJoint.Chained 2 expression head parts := by
  by_cases sameLevel : expression.level = 2
  · induction readable with
    | @ternary place condition yes no conditionReadable yesReadable noReadable ih =>
        obtain ⟨head, parts, chained⟩ :
            ∃ head parts, ternaryJoint.Chained 2 condition head parts := by
          by_cases conditionLevel : condition.level = 2
          · exact ih conditionLevel
          · exact ⟨condition, [], .alone conditionReadable conditionLevel⟩
        refine ⟨head, parts ++ [(yes, no)],
          chained.concat ⟨yesReadable, noReadable⟩ ⟨rfl, rfl⟩ ?_ rfl⟩
        rw [Expression.operand_of_le _ (Nat.le_refl 2), Expression.write_ternary,
          List.append_assoc]
        rfl
    | binary => exact absurd sameLevel (level_binary_ne (by decide))
    | _ => simp [Expression.level] at sameLevel
  · exact ⟨expression, [], .alone readable sameLevel⟩

include restores enough in
theorem ternaryPart_restores (part : Expression × Option Expression)
    (readable : ternaryJoint.Readable part) :
    Restores span (bound + 1) (Found (ternaryJoint.Restored part))
      (Grammar.ternaryPart fuel nested) (ternaryJoint.write part)
      (disjunctionStop ++ [.mark .colon]) := by
  obtain ⟨yes, no⟩ := part
  obtain ⟨yesReadable, noReadable⟩ := readable
  have yesRestores := binary_restores restores enough yes yesReadable
  cases no with
  | none =>
      exact .acceptWithin rfl (.bind (.require yesRestores) (List.subset_append_left _ _)
        fun value same => .pass (.pure ⟨_, rfl, same, rfl⟩) (List.subset_append_right _ _))
  | some no =>
      have noRestores := (binary_restores restores enough no (noReadable no rfl)).weaken
        (Nat.le_refl _) (List.subset_append_left disjunctionStop [.mark .colon])
      have colonStops : TokenKind.mark .colon ∉ disjunctionStop := by decide
      refine .acceptWithin rfl (.bind (.require yesRestores) colonStops fun value same =>
        .acceptWithin rfl (.map (.require noRestores) fun value' same' => ⟨_, rfl, same, ?_⟩))
      exact congrArg some same'

include restores enough in
theorem ternary_restores (expression : Expression) (readable : expression.Readable) :
    Restores span (bound + 1) (Found expression.Restored) (Grammar.ternary fuel nested)
      (expression.operand 2) ternaryStop := by
  obtain ⟨head, parts, chained⟩ := exists_ternaryChain readable
  have begins (part : Expression × Option Expression) (_ : part ∈ parts) :
      Begins [.mark .question] (ternaryJoint.write part) :=
    ⟨_, _, rfl, List.mem_singleton_self _⟩
  have each : RestoresEach span (bound + 1) (Grammar.ternaryPart fuel nested) ternaryJoint.write
      ternaryJoint.Restored ternaryStop parts :=
    .of_begins (fun part member =>
        ternaryPart_restores restores enough part (chained.partsReadable part member))
      begins (by decide) (by decide)
  refine chained.restores (binary_restores restores enough head chained.headReadable) ?_ each ?_
    enough fun _ => rfl
  · cases parts with
    | nil => exact List.subset_append_left _ _
    | cons first others =>
        rw [List.flatMap_cons]
        exact ((begins first List.mem_cons_self).append _).parted (by decide)
  · intro rest stops
    have other : nextKind rest ≠ .mark .question :=
      (ne_of_mem_of_not_mem (by decide) stops).symm
    exact bind_of_ok (accept_of_ne other)

def pipeJoint : Joint (Option Expression × Option Expression) where
  join := Grammar.joinPipe
  write part := Lexeme.led (.keyword .thenWord) (part.1.map (Expression.operand 2)) ++
    Lexeme.led (.keyword .otherwiseWord) (part.2.map (Expression.operand 2))
  Readable part := (∀ success ∈ part.1, success.Readable) ∧
    (∀ failure ∈ part.2, failure.Readable) ∧ (part.1.isSome = true ∨ part.2.isSome = true)
  Restored part value := value.1.map Expression.unplaced = part.1.map Expression.unplaced ∧
    value.2.map Expression.unplaced = part.2.map Expression.unplaced
  joins := by
    rintro left left' ⟨success, failure⟩ ⟨success', failure'⟩ leftSame ⟨successSame, failureSame⟩
    have leftUnplaced : left'.unplaced = left.unplaced := leftSame
    simp [Expression.Restored, Grammar.joinPipe, Expression.unplaced, leftUnplaced, successSame,
      failureSame]

/-- One part of a pipe may follow another: it does not begin with an `OTHERWISE`
that the other would take. -/
def MayFollow (part next : Option Expression × Option Expression) : Prop :=
  part.2.isSome = true ∨ next.1.isSome = true

theorem level_of_awaitsOtherwise {expression : Expression}
    (awaits : expression.awaitsOtherwise = true) : expression.level = 1 := by
  cases expression with
  | pipe span first success failure => rfl
  | _ => cases awaits

private theorem exists_pipeChain {expression : Expression} (readable : expression.Readable) :
    ∃ head parts, pipeJoint.Chained 1 expression head parts ∧ parts.IsChain MayFollow ∧
      ∀ last ∈ parts.getLast?, last.2.isSome = true ∨ expression.awaitsOtherwise = true := by
  by_cases sameLevel : expression.level = 1
  · induction readable with
    | @pipe place first success failure firstReadable successReadable failureReadable nonempty
        ih =>
        have partReadable : pipeJoint.Readable (success, failure) :=
          ⟨successReadable, failureReadable, nonempty⟩
        have lastAwaits : failure.isSome = true ∨
            (Expression.pipe place first success failure).awaitsOtherwise = true := by
          cases failure with
          | some failure => exact .inl rfl
          | none =>
              cases success with
              | some success => exact .inr rfl
              | none => simp at nonempty
        have written : (Expression.pipe place first success failure).operand 1 =
            first.pipeHead success ++ pipeJoint.write (success, failure) := by
          rw [Expression.operand_of_le _ (Nat.le_refl 1), Expression.write_pipe,
            List.append_assoc]
          rfl
        by_cases enclosed : (first.level < 1 || success.isNone && first.awaitsOtherwise) = true
        · have looser : first.level < 2 := by
            rcases Bool.or_eq_true_iff.mp enclosed with looser | awaits
            · exact Nat.lt_succ_of_lt (of_decide_eq_true looser)
            · have same := level_of_awaitsOtherwise (Bool.and_eq_true_iff.mp awaits).2
              omega
          have head : first.pipeHead success = first.operand 2 := by
            rw [first.operand_of_lt looser, Expression.pipeHead, enclosed]
            rfl
          refine ⟨first, [(success, failure)], ⟨firstReadable, ?_, ?_, rfl⟩, .singleton _, ?_⟩
          · intro part member
            cases List.mem_singleton.mp member
            exact partReadable
          · rw [written, head, List.flatMap_cons, List.flatMap_nil, List.append_nil]
          · intro last isLast
            cases isLast
            exact lastAwaits
        · have enclosedNot := Bool.eq_false_iff.mpr enclosed
          obtain ⟨tight, settled⟩ := Bool.or_eq_false_iff.mp enclosedNot
          have head : first.pipeHead success = first.operand 1 := by
            have level : 1 ≤ first.level := Nat.not_lt.mp (of_decide_eq_false tight)
            rw [first.operand_of_le level, Expression.pipeHead, enclosedNot]
            rfl
          obtain ⟨start, parts, chained, chain, awaits⟩ : ∃ head parts,
              pipeJoint.Chained 1 first head parts ∧ parts.IsChain MayFollow ∧
                ∀ last ∈ parts.getLast?,
                  last.2.isSome = true ∨ first.awaitsOtherwise = true := by
            by_cases firstLevel : first.level = 1
            · exact ih firstLevel
            · exact ⟨first, [], .alone firstReadable firstLevel, .nil, by simp⟩
          refine ⟨start, parts ++ [(success, failure)],
            chained.concat partReadable ⟨rfl, rfl⟩ (by rw [written, head]) rfl,
            chain.append (.singleton _) ?_, ?_⟩
          · intro part isLast next isNext
            cases isNext
            rcases awaits part isLast with taken | awaiting
            · exact .inl taken
            · right
              cases success with
              | some success => rfl
              | none => simp [awaiting] at settled
          · intro last isLast
            rw [List.getLast?_concat] at isLast
            cases isLast
            exact lastAwaits
    | binary => exact absurd sameLevel (level_binary_ne (by decide))
    | _ => simp [Expression.level] at sameLevel
  · exact ⟨expression, [], .alone readable sameLevel, .nil, by simp⟩

/-- Tokens that the rule for the parts of a pipe does not stop at after a part. -/
def pipePartStop (part : Option Expression × Option Expression) : List TokenKind :=
  if part.2.isSome then ternaryStop else ternaryStop ++ [.keyword .otherwiseWord]

include restores enough in
theorem pipePart_restores (part : Option Expression × Option Expression)
    (readable : pipeJoint.Readable part) :
    Restores span (bound + 1) (Found (pipeJoint.Restored part)) (Grammar.pipePart fuel nested)
      (pipeJoint.write part) (pipePartStop part) := by
  have operand := ternary_restores restores enough
  have otherwiseStops : TokenKind.keyword .otherwiseWord ∉ ternaryStop := by decide
  have notThen : TokenKind.keyword .otherwiseWord ∉ [TokenKind.keyword .thenWord] := by decide
  obtain ⟨success, failure⟩ := part
  obtain ⟨successReadable, failureReadable, nonempty⟩ := readable
  cases success with
  | some success =>
      have successRestores := operand success (successReadable success rfl)
      cases failure with
      | some failure =>
          have failureRestores := operand failure (failureReadable failure rfl)
          refine .acceptWithin rfl (.bind (.require successRestores) otherwiseStops
            fun value same => .acceptWithin rfl (.map (.require failureRestores)
              fun value' same' => ⟨_, rfl, ?_, ?_⟩))
          · exact congrArg some same
          · exact congrArg some same'
      | none =>
          refine .acceptWithin rfl (.bind (.require successRestores) (List.subset_append_left _ _)
            fun value same => .pass (.pure ⟨_, rfl, ?_, rfl⟩) (List.subset_append_right _ _))
          exact congrArg some same
  | none =>
      cases failure with
      | some failure =>
          have failureRestores := operand failure (failureReadable failure rfl)
          refine .pass (.acceptWithin rfl (.map (.require failureRestores)
            fun value same => ⟨_, rfl, rfl, ?_⟩)) notThen
          exact congrArg some same
      | none => simp at nonempty

theorem begins_pipePart {part : Option Expression × Option Expression}
    (readable : pipeJoint.Readable part) :
    Begins [.keyword .thenWord, .keyword .otherwiseWord] (pipeJoint.write part) := by
  obtain ⟨success, failure⟩ := part
  obtain ⟨-, -, nonempty⟩ := readable
  cases success with
  | some success => exact ⟨_, _, rfl, by decide⟩
  | none =>
      cases failure with
      | some failure => exact ⟨_, _, rfl, by decide⟩
      | none => simp at nonempty

theorem parted_pipeParts {part : Option Expression × Option Expression}
    {parts : List (Option Expression × Option Expression)}
    (readable : ∀ other ∈ parts, pipeJoint.Readable other)
    (chain : (part :: parts).IsChain MayFollow) :
    Parted (pipePartStop part) (parts.flatMap pipeJoint.write) pipeStop := by
  cases parts with
  | nil =>
      change pipePartStop part ⊆ pipeStop
      unfold pipePartStop
      split <;> decide
  | cons next parts =>
      have begins := begins_pipePart (readable next List.mem_cons_self)
      rw [List.flatMap_cons]
      rcases (List.isChain_cons_cons.mp chain).1 with taken | isThen
      · rw [pipePartStop, if_pos taken]
        exact (begins.append _).parted (by decide)
      · obtain ⟨success, failure⟩ := next
        cases success with
        | none => cases isThen
        | some success =>
            have thenStops : TokenKind.keyword .thenWord ∉ pipePartStop part := by
              unfold pipePartStop
              split <;> decide
            exact thenStops

include restores enough in
theorem pipeParts_each {parts : List (Option Expression × Option Expression)}
    (readable : ∀ part ∈ parts, pipeJoint.Readable part) (chain : parts.IsChain MayFollow) :
    RestoresEach span (bound + 1) (Grammar.pipePart fuel nested) pipeJoint.write
      pipeJoint.Restored pipeStop parts := by
  induction parts with
  | nil => exact .nil
  | cons part parts ih =>
      have partReadable := readable part List.mem_cons_self
      have othersReadable (other : _) (member : other ∈ parts) :=
        readable other (List.mem_cons_of_mem part member)
      have nonempty : pipeJoint.write part ≠ [] := by
        obtain ⟨first, others, same, -⟩ := begins_pipePart partReadable
        rw [same]
        exact List.cons_ne_nil first others
      exact .cons nonempty (pipePart_restores restores enough part partReadable)
        (parted_pipeParts othersReadable chain) (ih othersReadable chain.tail)

include restores enough in
theorem pipe_restores (expression : Expression) (readable : expression.Readable) :
    Restores span (bound + 1) (Found expression.Restored) (Grammar.pipe fuel nested)
      (expression.operand 1) pipeStop := by
  obtain ⟨head, parts, chained, chain, -⟩ := exists_pipeChain readable
  refine chained.restores (ternary_restores restores enough head chained.headReadable) ?_
    (pipeParts_each restores enough chained.partsReadable chain) ?_ enough fun _ => rfl
  · cases parts with
    | nil => exact List.subset_append_left _ _
    | cons first others =>
        rw [List.flatMap_cons]
        exact ((begins_pipePart (chained.partsReadable first List.mem_cons_self)).append _).parted
          (by decide)
  · intro rest stops
    have notThen : nextKind rest ≠ .keyword .thenWord :=
      (ne_of_mem_of_not_mem (by decide) stops).symm
    have notOtherwise : nextKind rest ≠ .keyword .otherwiseWord :=
      (ne_of_mem_of_not_mem (by decide) stops).symm
    exact (bind_of_ok (accept_of_ne notThen)).trans (bind_of_ok (accept_of_ne notOtherwise))

/-! ## Assignments -/

/-- An assignment is written as the targets and the value from left to right. -/
theorem exists_assignmentChain {expression : Expression} (readable : expression.Readable) :
    ∃ first others, Expression.Readable first ∧ (∀ other ∈ others, Expression.Readable other) ∧
      expression.write = first.operand 1 ++
        others.flatMap (fun other => .keyword .isWord :: other.operand 1) ∧
      expression.Restored (Grammar.joinAssignments first others) := by
  by_cases isAssign : expression.level = 0
  · induction readable with
    | @assign place target value targetReadable valueReadable targetIH ih =>
        obtain ⟨first, others, firstReadable, othersReadable, written, restored⟩ :
            ∃ first others, Expression.Readable first ∧
              (∀ other ∈ others, Expression.Readable other) ∧
              value.write = first.operand 1 ++
                others.flatMap (fun other => .keyword .isWord :: other.operand 1) ∧
              value.Restored (Grammar.joinAssignments first others) := by
          by_cases valueAssigns : value.level = 0
          · exact ih valueAssigns
          · refine ⟨value, [], valueReadable, by simp, ?_, rfl⟩
            simp [value.operand_of_le (Nat.one_le_iff_ne_zero.mpr valueAssigns)]
        refine ⟨target, first :: others, targetReadable, ?_, ?_, ?_⟩
        · intro other member
          rcases List.mem_cons.mp member with rfl | isOther
          · exact firstReadable
          · exact othersReadable other isOther
        · rw [Expression.write_assign, written]
          simp
        · exact congrArg (Expression.assign .beforeSource target.unplaced) restored
    | binary => exact absurd isAssign (level_binary_ne (by decide))
    | _ => simp [Expression.level] at isAssign
  · refine ⟨expression, [], readable, by simp, ?_, rfl⟩
    simp [expression.operand_of_le (Nat.one_le_iff_ne_zero.mpr isAssign)]

theorem joinAssignments_restored {others others' : List Expression}
    (same : Forall₂ Expression.Restored others others') {first first' : Expression}
    (firstSame : first.Restored first') :
    (Grammar.joinAssignments first others).Restored
      (Grammar.joinAssignments first' others') := by
  induction same generalizing first first' with
  | nil => exact firstSame
  | cons nextSame _ ih => exact congrArg₂ (Expression.assign .beforeSource) firstSame (ih nextSame)

include restores enough in
theorem assignment_restores (expression : Expression) (readable : expression.Readable) :
    Restores span (bound + 1) (Found expression.Restored) (Grammar.assignment fuel nested)
      expression.write expressionStop := by
  obtain ⟨first, others, firstReadable, othersReadable, written, restored⟩ :=
    exists_assignmentChain readable
  have operand := pipe_restores restores enough
  have each : RestoresEach span (bound + 1) (Grammar.assignedPart fuel nested)
      (fun other => .keyword .isWord :: other.operand 1) Expression.Restored expressionStop
      others :=
    .of_begins (fun other member => .acceptWithin rfl
        (.map (.require (operand other (othersReadable other member))) fun value same =>
          ⟨value, rfl, same⟩))
      (fun other _ => ⟨_, _, rfl, List.mem_singleton_self _⟩) (by decide)
      (List.subset_append_left _ _)
  have ended {rest : List Token} (stops : nextKind rest ∉ expressionStop) :
      Grammar.assignedPart fuel nested (.endOfSource span) rest = .ok (none, rest) := by
    have other : nextKind rest ≠ .keyword .isWord :=
      (ne_of_mem_of_not_mem (by decide) stops).symm
    exact bind_of_ok (accept_of_ne other)
  rw [written]
  refine .bindFound (operand first firstReadable) ?_ fun value same =>
    .map (.many each ended enough) fun values areSame => ⟨_, rfl, ?_⟩
  · cases others with
    | nil => exact List.subset_append_left _ _
    | cons next others => exact (by decide : TokenKind.keyword .isWord ∉ pipeStop)
  · exact (joinAssignments_restored areSame same).trans restored

end Levels

/-- The rule for expressions restores all of them that have fewer tokens than it
has fuel. -/
theorem expression_restores (span : Span) (fuel : Nat) (expression : Expression)
    (readable : expression.Readable) :
    Restores span fuel (Found expression.Restored) (Grammar.expression fuel) expression.write
      expressionStop := by
  induction fuel generalizing expression with
  | zero => exact ⟨fun _ _ short => absurd short (Nat.not_lt_zero _)⟩
  | succ fuel ih => exact assignment_restores ih (Nat.lt_succ_self fuel) expression readable

end Syntax

end Plainspoken
