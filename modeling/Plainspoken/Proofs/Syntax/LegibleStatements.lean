import Plainspoken.Proofs.Syntax.Legibility

/-!
# Legible statements

Whatever the rules for statements and declarations read can be written so that it
is read again, with no more parentheses.  That the first branch of a conditional
with `ELSE` is closed follows from what comes behind it.
-/

namespace Plainspoken

namespace Syntax

open Rule

/-! ## Declarators -/

private theorem valueType?_lexeme {lexeme : Lexeme} {type : ValueType}
    (named : Grammar.valueType? lexeme = some type) :
    Grammar.valueType? type.lexeme = some type := by
  cases lexeme with
  | keyword word => cases word <;> cases named <;> rfl
  | _ => cases named

theorem valueType_gives (tokens : List Token) :
    Gives Grammar.valueType tokens (Perhaps tokens fun type rest =>
      Grammar.valueType? type.lexeme = some type ∧ opened rest ≤ opened tokens) := by
  refine .current fun token _ => ?_
  cases named : Grammar.valueType? token.lexeme with
  | none => exact .pure rfl
  | some type => exact .advance (.pure ⟨valueType?_lexeme named, opened_tail_le tokens⟩)

theorem returnType_gives (tokens : List Token) :
    Gives Grammar.returnType tokens fun type rest =>
      type ≠ .any ∧ opened rest ≤ opened tokens := by
  refine .accept (fun _ rest fewer => .pure ⟨nofun, fewer⟩) fun _ => ?_
  refine (valueType_gives tokens).require.mono fun type rest given => ⟨?_, given.2⟩
  rintro rfl
  cases given.1

@[simp]
theorem openings_declarator (declarator : Declarator) : openings declarator.write = 0 := by
  obtain ⟨place, isMutable, type, name⟩ := declarator
  cases isMutable <;> simp [Declarator.write]

theorem declarator_gives (tokens : List Token) :
    Gives Grammar.declarator tokens
      (Perhaps tokens (Covered Declarator.Readable Declarator.write tokens)) := by
  refine .position fun place => .accept (fun _ between fewer => ?_) fun _ => ?_
  · refine (valueType_gives between).bind fun found rest => ?_
    cases found with
    | none => exact fun _ => .fail
    | some type =>
        rintro ⟨named, fewer'⟩
        refine .identifier fun name last fewer'' => .pure ⟨named, ?_⟩
        simp
        omega
  · refine .bindFound (valueType_gives tokens) rfl fun type rest given => ?_
    refine .identifier fun name last fewer => .pure ⟨given.1, ?_⟩
    have fewer' := given.2
    simp
    omega

theorem parametersFrom_gives {function : String} {budget : Nat} {known : List Declarator}
    (readable : ∀ parameter ∈ known, parameter.Readable)
    (distinct : (known.map Declarator.name).Nodup) (tokens : List Token) :
    Gives (Grammar.parametersFrom function budget known) tokens fun parameters rest =>
      (∀ parameter ∈ parameters, parameter.Readable) ∧
        (parameters.map Declarator.name).Nodup ∧ opened rest ≤ opened tokens := by
  induction budget generalizing known tokens with
  | zero => exact .fail
  | succ budget ih =>
      refine (declarator_gives tokens).require.bind fun parameter between covered => ?_
      have fewer : opened between ≤ opened tokens := by simpa using covered.enough
      by_cases repeated : known.any (·.name == parameter.name) = true
      · rw [if_pos repeated]
        exact .fail
      rw [if_neg repeated]
      have readable' : ∀ other ∈ known ++ [parameter], other.Readable := by
        intro other member
        rcases List.mem_append.mp member with isKnown | isLast
        · exact readable other isKnown
        · cases List.mem_singleton.mp isLast
          exact covered.isReadable
      have distinct' : ((known ++ [parameter]).map Declarator.name).Nodup := by
        simpa [List.nodup_append, distinct] using repeated
      refine .accept (fun _ rest fewer' => ?_) fun _ => .pure ⟨readable', distinct', fewer⟩
      refine (ih readable' distinct' rest).mono fun parameters last given => ?_
      obtain ⟨areReadable, areDistinct, fewer''⟩ := given
      exact ⟨areReadable, areDistinct, by omega⟩

theorem parameters_gives {fuel : Nat} {function : String} (tokens : List Token) :
    Gives (Grammar.parameters fuel function) tokens fun parameters rest =>
      (∀ parameter ∈ parameters, parameter.Readable) ∧
        (parameters.map Declarator.name).Nodup ∧ opened rest ≤ opened tokens := by
  refine .accept (fun _ rest fewer => ?_) fun _ => .pure ⟨by simp, .nil, Nat.le_refl _⟩
  have none : ∀ parameter ∈ ([] : List Declarator), parameter.Readable := by simp
  refine (parametersFrom_gives none List.nodup_nil rest).mono fun parameters last given => ?_
  exact ⟨given.1, given.2.1, Nat.le_trans given.2.2 fewer⟩

@[simp]
theorem openings_functionSignature (signature : FunctionSignature) :
    openings signature.write = 0 := by
  obtain ⟨place, name, overrides, parameters, returns⟩ := signature
  have others (parameters : List Declarator) :
      openings (parameters.flatMap fun parameter => .mark .comma :: parameter.write) = 0 := by
    induction parameters with
    | nil => rfl
    | cons parameter parameters ih => simp [ih]
  cases parameters with
  | nil => cases overrides <;> simp [FunctionSignature.write, writeName, Lexeme.listed]
  | cons first parameters =>
      cases overrides <;>
        simp [FunctionSignature.write, writeName, Lexeme.listed, List.flatMap_map, others]

@[simp]
theorem openings_patternSignature (signature : PatternSignature) :
    openings signature.write = 0 := by
  obtain ⟨place, name, overrides, parameter⟩ := signature
  cases overrides <;> simp [PatternSignature.write, writeName]

/-! ## Declarations -/

theorem requiredExpression_gives (fuel : Nat) (tokens : List Token) :
    Gives (Grammar.requiredExpression fuel) tokens (CoveredAt 0 tokens) :=
  (expression_gives fuel tokens).require

theorem variableDeclaration_gives (fuel : Nat) (tokens : List Token) :
    Gives (Grammar.variableDeclaration fuel) tokens
      (Perhaps tokens (Covered Statement.ReadableChild Statement.write tokens)) := by
  refine .bindFound (declarator_gives tokens) rfl fun declarator between covered => ?_
  have fewer : opened between ≤ opened tokens := by simpa using covered.enough
  refine .accept (fun _ rest fewer' => ?_) fun _ =>
    .pure ⟨.binding covered.isReadable nofun, by simpa [Statement.write, Lexeme.led] using fewer⟩
  refine (requiredExpression_gives fuel rest).bind fun initial last initialCovered =>
    .pure ⟨.binding covered.isReadable (by simpa using initialCovered.isReadable), ?_⟩
  have enough := initialCovered.enough
  simp [Statement.write, Lexeme.led] at enough ⊢
  omega

theorem variableStatement_gives (fuel : Nat) (tokens : List Token) :
    Gives (Grammar.variableStatement fuel) tokens
      (Perhaps tokens (Covered Statement.ReadableChild Statement.write tokens)) := by
  refine .bindFound (variableDeclaration_gives fuel tokens) rfl fun declaration between covered => ?_
  refine .expect fun rest fewer => .pure ⟨covered.isReadable, ?_⟩
  have enough := covered.enough
  omega

/-- A statement that is covered, and closed if `ELSE` comes next. -/
structure StatementCovered (tokens : List Token) (statement : Statement) (rest : List Token) : Prop
    extends Covered Statement.Readable Statement.write tokens statement rest where
  closed (comes : nextKind rest = .keyword .elseWord) : statement.isOpen = false

section Nested

variable {nested : Grammar.StatementRule} {fuel : Nat}
  (nestedGives : ∀ tokens, Gives nested tokens (Perhaps tokens (StatementCovered tokens)))
  (tokens : List Token)

include nestedGives in
theorem functionDeclaration_gives :
    Gives (Grammar.functionDeclaration fuel nested) tokens
      (Perhaps tokens (Covered Statement.ReadableChild Statement.write tokens)) := by
  refine .position fun place => .accept (fun _ start fewer => ?_) fun _ => .pure rfl
  refine .flag fun overrides behindFlag fewerFlag => ?_
  refine .identifier fun name behindName fewerName => ?_
  refine (parameters_gives behindName).bind fun parameters behindParameters given => ?_
  obtain ⟨areReadable, areDistinct, fewerParameters⟩ := given
  refine .expect fun behindWord fewerWord => ?_
  refine (returnType_gives behindWord).bind fun returns behindType typeGiven => ?_
  obtain ⟨isNamed, fewerType⟩ := typeGiven
  refine (nestedGives behindType).require.bind fun body rest covered =>
    .pure ⟨.function ⟨areReadable, areDistinct, isNamed⟩ covered.isReadable, ?_⟩
  have enough := covered.enough
  simp [Statement.write]
  omega

include nestedGives in
theorem matchBranch_gives :
    Gives (Grammar.matchBranch fuel nested) tokens
      (Perhaps tokens (Covered Statement.ReadableBranch Statement.writeBranch tokens)) := by
  refine .position fun place => .bindFound (expression_gives fuel tokens) rfl
    fun condition between conditionCovered => ?_
  refine .expect fun behindDo fewer => ?_
  refine (nestedGives behindDo).require.bind fun chosen behindChosen chosenCovered => ?_
  refine .expect fun rest fewer' =>
    .pure ⟨.branch conditionCovered.isReadable chosenCovered.isReadable, ?_⟩
  have conditionEnough := conditionCovered.enough
  have chosenEnough := chosenCovered.enough
  simp [Statement.writeBranch] at conditionEnough ⊢
  omega

include nestedGives in
theorem matchBlock_gives :
    Gives (Grammar.matchBlock fuel nested) tokens
      (Perhaps tokens (Covered Statement.ReadableBlock Statement.writeBlock tokens)) := by
  refine .accept (fun _ start fewer => ?_) fun _ => .pure rfl
  refine .position fun place => ?_
  refine (Gives.many (matchBranch_gives nestedGives) fuel).bind fun branches between steps => ?_
  obtain ⟨areReadable, branchesEnough⟩ := steps.covered
  refine .expect fun behindDefault fewerDefault => .position fun defaultPlace => ?_
  refine (nestedGives behindDefault).require.bind fun chosen behindChosen covered => ?_
  refine .expect fun behindComma fewerComma => .expect fun rest fewerEnd =>
    .pure ⟨.block areReadable covered.isReadable, ?_⟩
  have chosenEnough := covered.enough
  simp [Statement.writeBlock, Statement.writeBranches_concat, Statement.writeDefault]
  omega

include nestedGives in
theorem patternDeclaration_gives :
    Gives (Grammar.patternDeclaration fuel nested) tokens
      (Perhaps tokens (Covered Statement.ReadableChild Statement.write tokens)) := by
  refine .position fun place => .accept (fun _ start fewer => ?_) fun _ => .pure rfl
  refine .flag fun overrides behindFlag fewerFlag => ?_
  refine .identifier fun name behindName fewerName => .expect fun behindWord fewerWord => ?_
  refine (declarator_gives behindWord).require.bind fun parameter behindParameter covered => ?_
  have fewerParameter : opened behindParameter ≤ opened behindWord := by
    simpa using covered.enough
  refine (matchBlock_gives nestedGives behindParameter).bind fun found behindBlock => ?_
  cases found with
  | none =>
      rintro rfl
      refine .position fun endPlace => .expect fun rest fewerLast =>
        .pure ⟨.pattern covered.isReadable nofun, ?_⟩
      simp [Statement.write, Statement.writeBlock]
      omega
  | some block =>
      intro blockCovered
      refine .pure ⟨.pattern covered.isReadable fun _ => blockCovered.isReadable, ?_⟩
      have enough := blockCovered.enough
      simp [Statement.write]
      omega

include nestedGives in
theorem declaration_gives :
    Gives (Grammar.declaration fuel nested) tokens
      (Perhaps tokens (Covered Statement.ReadableChild Statement.write tokens)) :=
  .orElse (variableStatement_gives fuel tokens) (.orElse
    (functionDeclaration_gives nestedGives tokens) (.orElse
      (patternDeclaration_gives nestedGives tokens) .noRule))

/-! ## Statements -/

include nestedGives in
theorem sequence_gives :
    Gives (Grammar.sequence fuel nested) tokens fun body rest =>
      ∃ place children, body = .compound place children ∧
        (∀ child ∈ children, child.ReadableChild) ∧
        openings (children.flatMap Statement.write) + opened rest ≤ opened tokens := by
  have child (tokens : List Token) :
      Gives (firstApplicable [Grammar.declaration fuel nested, nested]) tokens
        (Perhaps tokens (Covered Statement.ReadableChild Statement.write tokens)) := by
    refine .orElse (declaration_gives nestedGives tokens) (.orElse
      ((nestedGives tokens).mono fun found rest => ?_) .noRule)
    cases found with
    | none => exact id
    | some statement => exact fun covered => ⟨.statement covered.isReadable, covered.enough⟩
  refine .position fun place => (Gives.many child fuel).bind fun children rest steps => .pure ?_
  exact ⟨place, children, rfl, steps.covered⟩

include nestedGives in
theorem block_gives :
    Gives (Grammar.block fuel nested) tokens (Perhaps tokens (StatementCovered tokens)) := by
  refine .accept (fun _ start fewer => ?_) fun _ => .pure rfl
  refine (sequence_gives nestedGives start).bind fun body between given => ?_
  obtain ⟨place, children, rfl, areReadable, enough⟩ := given
  refine .expect fun rest fewer' => .pure ⟨⟨.compound areReadable, ?_⟩, fun _ => rfl⟩
  simp [Statement.write]
  omega

theorem expressionStatement_gives :
    Gives (Grammar.expressionStatement fuel) tokens (Perhaps tokens (StatementCovered tokens)) := by
  refine .bindFound (expression_gives fuel tokens) rfl fun content between covered => ?_
  refine .expect fun rest fewer => .pure ⟨⟨.expression covered.isReadable, ?_⟩, fun _ => rfl⟩
  have enough := covered.enough
  simp [Statement.write] at enough ⊢
  omega

include nestedGives in
theorem branches_gives (place : Span) {condition : Expression} {between : List Token}
    (conditionCovered : CoveredAt 0 tokens condition between) :
    Gives (Grammar.branches nested place condition) between
      (Perhaps tokens (StatementCovered tokens)) := by
  have conditionEnough := conditionCovered.enough
  rw [Expression.operand_zero] at conditionEnough
  refine (nestedGives between).require.bind fun positive behind covered => ?_
  have positiveEnough := covered.enough
  refine .accept (fun comes start fewer => ?_) fun stops => .pure ⟨⟨?_, ?_⟩, fun comes => ?_⟩
  · refine (nestedGives start).require.bind fun negative rest negativeCovered =>
      .pure ⟨⟨?_, ?_⟩, negativeCovered.closed⟩
    · exact .conditional conditionCovered.isReadable covered.isReadable
        (fun _ => covered.closed comes) (by simpa using negativeCovered.isReadable)
    · have negativeEnough := negativeCovered.enough
      simp [Statement.write, Lexeme.led]
      omega
  · exact .conditional conditionCovered.isReadable covered.isReadable (by simp) (by simp)
  · simp [Statement.write, Lexeme.led]
    omega
  · exact absurd comes stops

include nestedGives in
theorem conditional_gives :
    Gives (Grammar.conditional fuel nested) tokens (Perhaps tokens (StatementCovered tokens)) := by
  refine .position fun place => .accept (fun _ start fewer => ?_) fun _ => .pure rfl
  refine (requiredExpression_gives fuel start).bind fun condition between covered => ?_
  refine .expect fun behindDo fewer' => branches_gives nestedGives tokens place ?_
  have enough := covered.enough
  exact ⟨covered.isReadable, by omega⟩

include nestedGives in
theorem whileLoop_gives :
    Gives (Grammar.whileLoop fuel nested) tokens (Perhaps tokens (StatementCovered tokens)) := by
  refine .position fun place => .accept (fun _ start fewer => ?_) fun _ => .pure rfl
  refine (requiredExpression_gives fuel start).bind fun condition between covered => ?_
  refine .expect fun behindDo fewer' => ?_
  refine (nestedGives behindDo).require.bind fun body rest bodyCovered =>
    .pure ⟨⟨.loop covered.isReadable bodyCovered.isReadable, ?_⟩, bodyCovered.closed⟩
  have enough := covered.enough
  have bodyEnough := bodyCovered.enough
  simp [Statement.write] at enough ⊢
  omega

include nestedGives in
theorem forLoop_gives :
    Gives (Grammar.forLoop fuel nested) tokens (Perhaps tokens (StatementCovered tokens)) := by
  refine .position fun place => .accept (fun _ start fewer => ?_) fun _ => .pure rfl
  refine (variableDeclaration_gives fuel start).require.bind fun declaration between covered => ?_
  refine (whileLoop_gives nestedGives between).require.bind fun loop rest loopCovered =>
    .pure ⟨⟨.compound ?_, ?_⟩, fun _ => rfl⟩
  · simp only [List.forall_mem_cons, List.not_mem_nil, false_implies, implies_true, and_true]
    exact ⟨covered.isReadable, .statement loopCovered.isReadable⟩
  · have enough := covered.enough
    have loopEnough := loopCovered.enough
    simp [Statement.write]
    omega

theorem jump_gives :
    Gives (Grammar.jump fuel) tokens (Perhaps tokens (StatementCovered tokens)) := by
  have fewer := opened_tail_le tokens
  refine .current fun token _ => ?_
  obtain ⟨lexeme, place⟩ := token
  cases lexeme with
  | keyword word =>
      cases word with
      | skipWord =>
          refine .advance (.expect fun rest fewer' => .pure ⟨⟨.skip, ?_⟩, fun _ => rfl⟩)
          simpa [Statement.write] using Nat.le_trans fewer' fewer
      | stopWord =>
          refine .advance (.expect fun rest fewer' => .pure ⟨⟨.stop, ?_⟩, fun _ => rfl⟩)
          simpa [Statement.write] using Nat.le_trans fewer' fewer
      | returnWord =>
          refine .advance ((expression_gives fuel tokens.tail).bind fun value between given => ?_)
          refine .expect fun rest fewer' => .pure ⟨⟨.giveBack ?_, ?_⟩, fun _ => rfl⟩
          · intro part isValue
            cases isValue
            exact given.isReadable
          · cases value with
            | none =>
                have same : between = tokens.tail := given
                subst same
                simpa [Statement.write] using Nat.le_trans fewer' fewer
            | some value =>
                have enough := given.enough
                simp [Statement.write] at enough ⊢
                omega
      | _ => exact .pure rfl
  | _ => exact .pure rfl

include nestedGives in
theorem matching_gives :
    Gives (Grammar.matching fuel nested) tokens (Perhaps tokens (StatementCovered tokens)) := by
  refine .position fun place => .accept (fun _ start fewer => ?_) fun _ => .pure rfl
  refine .expect fun behindWith fewer' => ?_
  refine (requiredExpression_gives fuel behindWith).bind fun subject between covered => ?_
  refine (matchBlock_gives nestedGives between).require.bind fun body rest bodyCovered =>
    .pure ⟨⟨.matching covered.isReadable bodyCovered.isReadable, ?_⟩, fun _ => rfl⟩
  have enough := covered.enough
  have bodyEnough := bodyCovered.enough
  simp [Statement.write] at enough ⊢
  omega

theorem emptyStatement_gives :
    Gives Grammar.emptyStatement tokens (Perhaps tokens (StatementCovered tokens)) := by
  refine .position fun place => .accept (fun _ rest fewer => ?_) fun _ => .pure rfl
  exact .pure ⟨⟨.empty, by simpa [Statement.write] using fewer⟩, fun _ => rfl⟩

include nestedGives in
theorem statementWith_gives :
    Gives (Grammar.statementWith fuel nested) tokens
      (Perhaps tokens (StatementCovered tokens)) := by
  refine .orElse (block_gives nestedGives tokens) ?_
  refine .orElse (expressionStatement_gives tokens) ?_
  refine .orElse (conditional_gives nestedGives tokens) ?_
  refine .orElse (forLoop_gives nestedGives tokens) ?_
  refine .orElse (whileLoop_gives nestedGives tokens) ?_
  refine .orElse (jump_gives tokens) ?_
  refine .orElse (matching_gives nestedGives tokens) ?_
  exact .orElse (emptyStatement_gives tokens) .noRule

end Nested

theorem statement_gives (fuel : Nat) (tokens : List Token) :
    Gives (Grammar.statement fuel) tokens (Perhaps tokens (StatementCovered tokens)) := by
  induction fuel generalizing tokens with
  | zero => exact .pure rfl
  | succ fuel ih => exact statementWith_gives ih tokens

/-- Every program that is read is a sequence of readable statements and declarations,
and it is written with no more parentheses than were read. -/
theorem program_gives (fuel : Nat) (tokens : List Token) :
    Gives (Grammar.program fuel) tokens fun program _ =>
      ∃ place children, program = .compound place children ∧
        (∀ child ∈ children, child.ReadableChild) ∧
        openings (children.flatMap Statement.write) ≤ opened tokens := by
  refine (sequence_gives (statement_gives fuel) tokens).bind fun body between given => ?_
  obtain ⟨place, children, rfl, areReadable, enough⟩ := given
  exact .expect fun rest fewer => .pure ⟨place, children, rfl, areReadable, by omega⟩

end Syntax

end Plainspoken
