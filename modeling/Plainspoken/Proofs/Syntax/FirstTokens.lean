import Plainspoken.Proofs.Syntax.ProbingStatements

/-!
# What the first token decides

A rule that may not apply either leaves all tokens or uses one at least.  So trying rules in
an order is as good as choosing one of them by the first token, and repeating such a rule
comes to an end, without any budget for the rounds.
-/

namespace Plainspoken

namespace Syntax

open Rule

variable {α : Type}

/-! ## Repetition without a budget -/

/-- A rule is applied as often as it applies, until it does not apply or fails. -/
inductive Repeats (rule : Rule (Option α)) (ending : StreamEnd) :
    List Token → Except BuildError (List α × List Token) → Prop where
  | stops {tokens rest : List Token} (declined : rule ending tokens = .ok (none, rest)) :
      Repeats rule ending tokens (.ok ([], rest))
  | fails {tokens : List Token} {failure : BuildError}
      (failed : rule ending tokens = .error failure) : Repeats rule ending tokens (.error failure)
  | again {tokens between : List Token} {value : α}
      {outcome : Except BuildError (List α × List Token)}
      (applied : rule ending tokens = .ok (some value, between))
      (others : Repeats rule ending between outcome) :
      Repeats rule ending tokens (outcome.map fun result => (value :: result.1, result.2))

private theorem many_succ_of_applied {rule : Rule (Option α)} {ending : StreamEnd}
    {tokens between : List Token} {value : α} (rounds : Nat)
    (applied : rule ending tokens = .ok (some value, between)) :
    many (rounds + 1) rule ending tokens =
      (many rounds rule ending between).map fun result => (value :: result.1, result.2) := by
  refine (bind_of_ok applied).trans ?_
  cases read : many rounds rule ending between with
  | error failure => exact bind_of_error read
  | ok result => exact bind_of_ok read

/-- A rule that may not apply is repeated to the end within any number of rounds that is
larger than the number of tokens. -/
theorem Probes.repeats {whole : List Token} {bound : Nat} {starts : List TokenKind}
    {good : List Token → α → Prop} {rule free : Rule (Option α)} {ending : StreamEnd}
    (probes : Probes whole bound starts good rule rule)
    (same : ∀ tokens, tokens.length < bound → rule ending tokens = free ending tokens)
    {tokens : List Token} (remain : Remain whole bound tokens) {rounds : Nat}
    (enough : tokens.length < rounds) :
    Repeats free ending tokens (many rounds rule ending tokens) := by
  induction rounds generalizing tokens with
  | zero => exact absurd enough (Nat.not_lt_zero _)
  | succ rounds ih =>
      have freely := (same tokens remain.short).symm
      obtain ⟨failure, failed⟩ | ⟨-, declined⟩ | ⟨value, used, rest, applied, nonempty, rfl, -⟩ :=
        probes.outcome remain ending
      · rw [many, bind_of_error failed]
        exact .fails (freely.trans failed)
      · rw [many, bind_of_ok declined]
        exact .stops (freely.trans declined)
      · rw [many_succ_of_applied rounds applied]
        have fewer := List.length_pos_iff.mpr nonempty
        rw [List.length_append] at enough
        exact .again (freely.trans applied) (ih remain.behind (by omega))

/-! ## The rules that may not apply -/

/-- A rule that may not apply, with the kinds of tokens that it begins with.  It is given
budgets for the length of chains and for the depth of what is nested in it. -/
structure ProbingRule where
  starts : List TokenKind
  Result : Type
  rule : Nat → Nat → Rule (Option Result)

namespace ProbingRule

/-- The rule with budgets that suffice for the tokens, however many there are. -/
def unbounded (probing : ProbingRule) : Rule (Option probing.Result) :=
  fun ending tokens => probing.rule (tokens.length + 1) tokens.length ending tokens

/-- At the tokens the rule decides by the first of them.  If it does not apply, it leaves all
of them, and if it does, it uses one at least.  Its budgets make no difference. -/
structure Decides (probing : ProbingRule) (chain depth : Nat) (ending : StreamEnd)
    (tokens : List Token) : Prop where
  leaves : ∀ rest, probing.rule chain depth ending tokens = .ok (none, rest) → rest = tokens
  uses : ∀ value rest, probing.rule chain depth ending tokens = .ok (some value, rest) →
    ∃ used, used ≠ [] ∧ tokens = used ++ rest
  declines_iff :
    probing.rule chain depth ending tokens = .ok (none, tokens) ↔ nextKind tokens ∉ probing.starts
  unbounded_eq : probing.rule chain depth ending tokens = probing.unbounded ending tokens

/-- The rule probes with all budgets that suffice. -/
def Probing (probing : ProbingRule) : Prop :=
  ∀ (whole : List Token) {bound chain chain' depth depth' : Nat}, bound + 1 ≤ chain →
    bound + 1 ≤ chain' → bound ≤ depth → bound ≤ depth' →
    ∃ good, Probes whole (bound + 1) probing.starts good (probing.rule chain depth)
      (probing.rule chain' depth')

variable {probing : ProbingRule} {chain depth : Nat} {tokens : List Token}

theorem Probing.decides (isProbing : probing.Probing) (enoughChain : tokens.length < chain)
    (enoughDepth : tokens.length ≤ depth) (ending : StreamEnd) :
    probing.Decides chain depth ending tokens := by
  obtain ⟨good, probes⟩ :=
    isProbing tokens enoughChain (Nat.le_refl _) enoughDepth (Nat.le_refl tokens.length)
  have remain : Remain tokens (tokens.length + 1) tokens :=
    ⟨List.suffix_rfl, Nat.lt_succ_self _⟩
  refine ⟨fun rest declined => ?_, fun value rest applied => ?_, ⟨fun declined starting => ?_,
    probes.declines remain⟩, probes.same remain⟩
  · obtain ⟨_, failed⟩ | ⟨-, untold⟩ | ⟨_, _, _, applied, -⟩ := probes.outcome remain ending
    · cases failed.symm.trans declined
    · cases untold.symm.trans declined
      rfl
    · cases applied.symm.trans declined
  · obtain ⟨_, failed⟩ | ⟨-, untold⟩ | ⟨_, used, _, told, nonempty, split, -⟩ :=
      probes.outcome remain ending
    · cases failed.symm.trans applied
    · cases untold.symm.trans applied
    · cases told.symm.trans applied
      exact ⟨used, nonempty, split⟩
  · obtain ⟨_, _, found, -⟩ := probes.applies remain starting declined
    cases found

theorem Probing.repeats (isProbing : probing.Probing) (enoughChain : tokens.length < chain)
    (enoughDepth : tokens.length ≤ depth) (ending : StreamEnd) :
    Repeats probing.unbounded ending tokens
      (many chain (probing.rule chain depth) ending tokens) := by
  obtain ⟨good, probes⟩ := isProbing tokens enoughChain enoughChain enoughDepth enoughDepth
  refine probes.repeats (fun others fewer => ?_) ⟨List.suffix_rfl, Nat.lt_succ_self _⟩ enoughChain
  have short : others.length ≤ tokens.length := Nat.le_of_lt_succ fewer
  exact (isProbing.decides (by omega) (by omega) ending).unbounded_eq

end ProbingRule

/-- The binary operators of some of the levels, the tightest first, down to the signed
operands. -/
def binaryUpTo (level chain : Nat) (nested : Grammar.ExpressionRule) : Grammar.ExpressionRule :=
  (Grammar.binaryLevels.take level).foldl (Grammar.binaryLevel chain)
    (Grammar.unary chain nested)

/-- The levels of expressions and what an operand can be. -/
def expressionRules : List ProbingRule :=
  [⟨starts .expression, Expression, fun _ depth => Grammar.expression (depth + 1)⟩,
    ⟨starts .assignment, Expression, fun chain depth =>
      Grammar.assignment chain (Grammar.expression depth)⟩,
    ⟨starts .pipe, Expression, fun chain depth => Grammar.pipe chain (Grammar.expression depth)⟩,
    ⟨starts .ternary, Expression, fun chain depth =>
      Grammar.ternary chain (Grammar.expression depth)⟩] ++
  (List.range 7).map (fun level => ⟨starts .unary, Expression, fun chain depth =>
    binaryUpTo level chain (Grammar.expression depth)⟩) ++
  [⟨starts .noneTest, Expression, fun chain depth =>
      Grammar.noneTest chain (Grammar.expression depth)⟩,
    ⟨operandStarts, Expression, fun chain depth =>
      Grammar.primary chain (Grammar.expression depth)⟩,
    ⟨starts .literal, Expression, fun _ _ => literal⟩,
    ⟨[.identifier], Expression, fun _ _ => named⟩,
    ⟨[.mark .openParenthesis], Expression, fun _ depth => enclosed (Grammar.expression depth)⟩,
    ⟨starts .call, Expression, fun chain depth => call chain (Grammar.expression depth)⟩]

/-- The statements and their parts. -/
def statementRules : List ProbingRule :=
  [⟨starts .statement, Statement, fun _ depth => Grammar.statement (depth + 1)⟩,
    ⟨starts .compound, Statement, fun chain depth =>
      Grammar.block chain (Grammar.statement depth)⟩,
    ⟨starts .expressionStatement, Statement, fun chain _ => Grammar.expressionStatement chain⟩,
    ⟨starts .conditional, Statement, fun chain depth =>
      Grammar.conditional chain (Grammar.statement depth)⟩,
    ⟨starts .forLoop, Statement, fun chain depth =>
      Grammar.forLoop chain (Grammar.statement depth)⟩,
    ⟨starts .whileLoop, Statement, fun chain depth =>
      Grammar.whileLoop chain (Grammar.statement depth)⟩,
    ⟨starts .jump, Statement, fun chain _ => Grammar.jump chain⟩,
    ⟨starts .matching, Statement, fun chain depth =>
      Grammar.matching chain (Grammar.statement depth)⟩,
    ⟨starts .empty, Statement, fun _ _ => Grammar.emptyStatement⟩,
    ⟨starts .matchBlock, Statement, fun chain depth =>
      Grammar.matchBlock chain (Grammar.statement depth)⟩]

/-- The declarations and their parts. -/
def declarationRules : List ProbingRule :=
  [⟨starts .declaration, Statement, fun chain depth =>
      Grammar.declaration chain (Grammar.statement depth)⟩,
    ⟨starts .variableDeclaration, Statement, fun chain _ => Grammar.variableStatement chain⟩,
    ⟨starts .variableDeclaration, Statement, fun chain _ => Grammar.variableDeclaration chain⟩,
    ⟨starts .function, Statement, fun chain depth =>
      Grammar.functionDeclaration chain (Grammar.statement depth)⟩,
    ⟨starts .pattern, Statement, fun chain depth =>
      Grammar.patternDeclaration chain (Grammar.statement depth)⟩,
    ⟨starts .declarator, Declarator, fun _ _ => Grammar.declarator⟩,
    ⟨starts .type, ValueType, fun _ _ => Grammar.valueType⟩]

/-- What is repeated: the members of a sequence, the branches of a match, the further
arguments of a call, and what follows the first operand of each kind of chain. -/
def repeatedRules : List ProbingRule :=
  [⟨starts .sequence, Statement, fun chain depth => firstApplicable
      ((sequenceAlternatives chain (Grammar.statement (depth + 1))).map Prod.snd)⟩,
    ⟨starts .matchBranch, Statement, fun chain depth =>
      Grammar.matchBranch chain (Grammar.statement depth)⟩,
    ⟨[.mark .comma], Expression, fun _ depth =>
      Grammar.furtherArgument (Grammar.expression depth)⟩,
    ⟨[.mark .question], Expression × Option Expression, fun chain depth =>
      Grammar.ternaryPart chain (Grammar.expression depth)⟩,
    ⟨[.keyword .thenWord, .keyword .otherwiseWord], Option Expression × Option Expression,
      fun chain depth => Grammar.pipePart chain (Grammar.expression depth)⟩,
    ⟨[.keyword .isWord], Expression, fun chain depth =>
      Grammar.assignedPart chain (Grammar.expression depth)⟩] ++
  Grammar.binaryLevels.zipIdx.map fun (table, level) =>
    ⟨table.map Prod.fst, BinaryOperator × Expression, fun chain depth =>
      Grammar.operatorAndOperand table (binaryUpTo level chain (Grammar.expression depth))⟩

/-- All rules that may not apply. -/
def probingRules : List ProbingRule :=
  expressionRules ++ statementRules ++ declarationRules ++ repeatedRules

namespace ProbingRule.Probing

theorem alone {starts : List TokenKind} {Result : Type} {rule : Rule (Option Result)}
    {good : List Token → List Token → Result → Prop}
    (probes : ∀ {whole bound}, Probes whole (bound + 1) starts (good whole) rule rule) :
    Probing ⟨starts, Result, fun _ _ => rule⟩ :=
  fun _ _ _ _ _ _ _ _ _ _ => ⟨_, probes⟩

theorem overChain {starts : List TokenKind} {Result : Type} {rule : Nat → Rule (Option Result)}
    {good : List Token → List Token → Result → Prop}
    (probes : ∀ {whole bound chain chain'}, bound + 1 ≤ chain → bound + 1 ≤ chain' →
      Probes whole (bound + 1) starts (good whole) (rule chain) (rule chain')) :
    Probing ⟨starts, Result, fun chain _ => rule chain⟩ :=
  fun _ _ _ _ _ _ enough enough' _ _ => ⟨_, probes enough enough'⟩

theorem overExpression {starts : List TokenKind} {Result : Type}
    {rule : Nat → Grammar.ExpressionRule → Rule (Option Result)}
    {good : List Token → List Token → Result → Prop}
    (probes : ∀ {whole bound chain chain' nested nested'},
      Probes whole bound expressionStarts (Placed whole) nested nested' →
      bound + 1 ≤ chain → bound + 1 ≤ chain' →
      Probes whole (bound + 1) starts (good whole) (rule chain nested) (rule chain' nested')) :
    Probing ⟨starts, Result, fun chain depth => rule chain (Grammar.expression depth)⟩ :=
  fun _ _ _ _ _ _ enough enough' deep deep' =>
    ⟨_, probes (expression_probes deep deep') enough enough'⟩

theorem overStatement {starts : List TokenKind} {Result : Type}
    {rule : Nat → Grammar.StatementRule → Rule (Option Result)}
    {good : List Token → List Token → Result → Prop}
    (probes : ∀ {whole bound chain chain' nested nested'},
      Probes whole bound statementStarts (fun _ => AllArranged whole) nested nested' →
      bound + 1 ≤ chain → bound + 1 ≤ chain' →
      Probes whole (bound + 1) starts (good whole) (rule chain nested) (rule chain' nested')) :
    Probing ⟨starts, Result, fun chain depth => rule chain (Grammar.statement depth)⟩ :=
  fun _ _ _ _ _ _ enough enough' deep deep' =>
    ⟨_, probes (statement_probes deep deep') enough enough'⟩

end ProbingRule.Probing

theorem binaryUpTo_probes {whole : List Token} (level : Nat) {bound chain chain' : Nat}
    {nested nested' : Grammar.ExpressionRule}
    (inner : Probes whole bound expressionStarts (Placed whole) nested nested')
    (enough : bound + 1 ≤ chain) (enough' : bound + 1 ≤ chain') :
    Probes whole (bound + 1) expressionStarts (Placed whole) (binaryUpTo level chain nested)
      (binaryUpTo level chain' nested') := by
  have inside : ∀ table ∈ Grammar.binaryLevels, TokenKind.endOfSource ∉ table.map Prod.fst := by
    decide
  exact binaryLevels_probe enough enough' _
    (fun table member => inside table (List.mem_of_mem_take member))
    (unary_probes inner enough enough')

theorem expressionRules_probe : ∀ probing ∈ expressionRules, probing.Probing := by
  simp only [expressionRules, List.forall_mem_append, List.forall_mem_cons, List.forall_mem_map]
  refine ⟨⟨⟨?_, .overExpression assignment_probes, .overExpression pipe_probes,
      .overExpression ternary_probes, List.forall_mem_nil _⟩,
    fun level _ => .overExpression (binaryUpTo_probes level)⟩,
    .overExpression noneTest_probes, .overExpression primary_probes, .alone literal_probes,
    .alone named_probes, .overExpression fun inner _ _ => enclosed_probes inner,
    .overExpression call_probes, List.forall_mem_nil _⟩
  exact fun _ _ _ _ _ _ _ _ deep deep' => ⟨_, expression_probes (Nat.succ_le_succ deep)
    (Nat.succ_le_succ deep')⟩

theorem statementRules_probe : ∀ probing ∈ statementRules, probing.Probing := by
  simp only [statementRules, List.forall_mem_cons]
  refine ⟨?_, .overStatement block_probes, .overChain expressionStatement_probes,
    .overStatement conditional_probes, .overStatement forLoop_probes,
    .overStatement whileLoop_probes, .overChain jump_probes, .overStatement matching_probes,
    .alone emptyStatement_probes, .overStatement matchBlock_probes, List.forall_mem_nil _⟩
  exact fun _ _ _ _ _ _ _ _ deep deep' => ⟨_, statement_probes (Nat.succ_le_succ deep)
    (Nat.succ_le_succ deep')⟩

theorem declarationRules_probe : ∀ probing ∈ declarationRules, probing.Probing := by
  simp only [declarationRules, List.forall_mem_cons]
  exact ⟨.overStatement declaration_probes, .overChain variableStatement_probes,
    .overChain variableDeclaration_probes, .overStatement functionDeclaration_probes,
    .overStatement patternDeclaration_probes, .alone declarator_probes, .alone valueType_probes,
    List.forall_mem_nil _⟩

theorem repeatedRules_probe : ∀ probing ∈ repeatedRules, probing.Probing := by
  have inside : ∀ part ∈ Grammar.binaryLevels.zipIdx,
      TokenKind.endOfSource ∉ part.1.map Prod.fst := by decide
  simp only [repeatedRules, List.forall_mem_append, List.forall_mem_cons, List.forall_mem_map]
  refine ⟨⟨?_, .overStatement matchBranch_probes,
    .overExpression fun inner _ _ => furtherArgument_probes inner,
    .overExpression ternaryPart_probes, .overExpression pipePart_probes,
    .overExpression assignedPart_probes, List.forall_mem_nil _⟩, fun part member => ?_⟩
  · exact fun _ _ _ _ _ _ enough enough' deep deep' => ⟨_, sequenceMember_probes
      (statement_probes (Nat.succ_le_succ deep) (Nat.succ_le_succ deep')) enough enough'⟩
  · exact .overExpression fun inner enough enough' =>
      operatorAndOperand_probes (inside part member)
        ((binaryUpTo_probes part.2 inner enough enough').weaken (Nat.le_succ _))

theorem probingRules_probe : ∀ probing ∈ probingRules, probing.Probing := by
  simp only [probingRules, List.forall_mem_append]
  exact ⟨⟨⟨expressionRules_probe, statementRules_probe⟩, declarationRules_probe⟩,
    repeatedRules_probe⟩

/-! ## Choosing by the first token -/

section Choice

variable {whole : List Token} {bound chain : Nat} {nested : Grammar.StatementRule}
  {ending : StreamEnd} {tokens : List Token}

theorem declaration_chosen
    (inner : Probes whole bound statementStarts (fun _ => AllArranged whole) nested nested)
    (enough : bound + 1 ≤ chain) (remain : Remain whole (bound + 1) tokens) :
    ChosenFrom (declarationAlternatives chain nested) (Grammar.declaration chain nested) ending
      tokens := by
  have each : ∀ alternative ∈ declarationAlternatives chain nested,
      Probes whole (bound + 1) alternative.1 (fun _ => AllArranged whole) alternative.2
        alternative.2 := by
    simp only [declarationAlternatives, List.forall_mem_cons]
    exact ⟨variableStatement_probes enough enough, functionDeclaration_probes inner enough enough,
      patternDeclaration_probes inner enough enough, List.forall_mem_nil _⟩
  have apart : [declaratorStarts, [.keyword .functionWord], [.keyword .patternWord]].Pairwise
      fun earlier later => ∀ kind ∈ earlier, kind ∉ later := by decide
  exact chosenFrom_firstApplicable each apart remain

theorem statementWith_chosen
    (inner : Probes whole bound statementStarts (fun _ => AllArranged whole) nested nested)
    (enough : bound + 1 ≤ chain) (remain : Remain whole (bound + 1) tokens) :
    ChosenFrom (statementAlternatives chain nested) (Grammar.statementWith chain nested) ending
      tokens := by
  have each : ∀ alternative ∈ statementAlternatives chain nested,
      Probes whole (bound + 1) alternative.1 (fun _ => AllArranged whole) alternative.2
        alternative.2 := by
    simp only [statementAlternatives, List.forall_mem_cons]
    exact ⟨block_probes inner enough enough, expressionStatement_probes enough enough,
      conditional_probes inner enough enough, forLoop_probes inner enough enough,
      whileLoop_probes inner enough enough, jump_probes enough enough,
      matching_probes inner enough enough, emptyStatement_probes, List.forall_mem_nil _⟩
  have apart : [starts .compound, starts .expressionStatement, starts .conditional,
      starts .forLoop, starts .whileLoop, starts .jump, starts .matching, starts .empty].Pairwise
      fun earlier later => ∀ kind ∈ earlier, kind ∉ later := by decide
  exact chosenFrom_firstApplicable each apart remain

theorem sequenceMember_chosen
    (inner : Probes whole (bound + 1) statementStarts (fun _ => AllArranged whole) nested nested)
    (enough : bound + 1 ≤ chain) (remain : Remain whole (bound + 1) tokens) :
    ChosenFrom (sequenceAlternatives chain nested)
      (firstApplicable ((sequenceAlternatives chain nested).map Prod.snd)) ending tokens := by
  have each : ∀ alternative ∈ sequenceAlternatives chain nested,
      Probes whole (bound + 1) alternative.1 (fun _ => AllArranged whole) alternative.2
        alternative.2 := by
    simp only [sequenceAlternatives, List.forall_mem_cons]
    exact ⟨declaration_probes (inner.weaken (Nat.le_succ bound)) enough enough, inner,
      List.forall_mem_nil _⟩
  have apart : [declarationStarts, statementStarts].Pairwise
      fun earlier later => ∀ kind ∈ earlier, kind ∉ later := by decide
  exact chosenFrom_firstApplicable each apart remain

end Choice

/-- Wherever a rule that may not apply is tried, however the tokens end and with all budgets
that suffice for them, it leaves all tokens or uses one at least.  The first token tells which
of several alternatives applies.  What is repeated comes to an end. -/
theorem rules_decide_by_the_first_token {chain depth : Nat} {tokens : List Token}
    (enoughChain : tokens.length < chain) (enoughDepth : tokens.length ≤ depth)
    (ending : StreamEnd) :
    (∀ probing ∈ probingRules, probing.Decides chain depth ending tokens) ∧
      ChosenFrom (operandAlternatives chain (Grammar.expression depth))
        (Grammar.primary chain (Grammar.expression depth)) ending tokens ∧
      ChosenFrom (declarationAlternatives chain (Grammar.statement depth))
        (Grammar.declaration chain (Grammar.statement depth)) ending tokens ∧
      ChosenFrom (statementAlternatives chain (Grammar.statement depth))
        (Grammar.statementWith chain (Grammar.statement depth)) ending tokens ∧
      ChosenFrom (sequenceAlternatives chain (Grammar.statement (depth + 1)))
        (firstApplicable [Grammar.declaration chain (Grammar.statement (depth + 1)),
          Grammar.statement (depth + 1)]) ending tokens ∧
      ∀ repeated ∈ repeatedRules, Repeats repeated.unbounded ending tokens
        (many chain (repeated.rule chain depth) ending tokens) := by
  have remain : Remain tokens (tokens.length + 1) tokens :=
    ⟨List.suffix_rfl, Nat.lt_succ_self _⟩
  have expressions := @expression_probes tokens _ _ _ enoughDepth enoughDepth
  have statements := @statement_probes tokens _ _ _ enoughDepth enoughDepth
  have members := @statement_probes tokens _ _ _ (Nat.succ_le_succ enoughDepth)
    (Nat.succ_le_succ enoughDepth)
  refine ⟨fun probing member => ?_, primary_chosen expressions enoughChain enoughChain remain,
    declaration_chosen statements enoughChain remain,
    statementWith_chosen statements enoughChain remain,
    sequenceMember_chosen members enoughChain remain, fun repeated member => ?_⟩
  · exact (probingRules_probe probing member).decides enoughChain enoughDepth ending
  · exact (repeatedRules_probe repeated member).repeats enoughChain enoughDepth ending

/-- A negation and the end of its statement. -/
def negation : List Token :=
  [⟨.keyword .notWord, ⟨1, 2⟩⟩, ⟨.identifier "x", ⟨1, 6⟩⟩, ⟨.mark .semicolon, ⟨1, 7⟩⟩]

/-- The word of a negation tells that an expression stands as a statement. -/
theorem negation_is_an_expression_statement :
    (negation.length < 4 ∧ negation.length ≤ 3) ∧
      Grammar.statementWith 4 (Grammar.statement 3) (.endOfSource ⟨1, 8⟩) negation =
        Grammar.expressionStatement 4 (.endOfSource ⟨1, 8⟩) negation := by
  refine ⟨by decide, ?_⟩
  obtain ⟨-, -, -, chosen, -⟩ := @rules_decide_by_the_first_token 4 3 negation (by decide)
    (by decide) (.endOfSource ⟨1, 8⟩)
  exact chosen.told (starts .expressionStatement, Grammar.expressionStatement 4)
    (by simp [statementAlternatives]) (by decide)

end Syntax

end Plainspoken
