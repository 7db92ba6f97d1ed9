import Plainspoken.Proofs.Syntax.Declarations
import Plainspoken.Proofs.Syntax.ProbingExpressions

/-!
# Rules for statements and declarations probe

A statement or a declaration is what its first token tells.  Whatever optional tokens a rule
begins with, such as the word that makes a variable mutable, the rule has to apply once it
has used one of them.
-/

namespace Plainspoken

namespace Syntax

open Rule

/-! ## Expressions in statements -/

/-- In all expressions of the statement everything starts where it should. -/
def AllArranged (whole : List Token) (statement : Statement) : Prop :=
  ∀ expression, statement.Holds expression → expression.StartsWithOperand (Follows whole)

variable {whole : List Token} {bound chain chain' : Nat}

namespace AllArranged

variable {statement : Statement}

theorem of_parts (expressions : ∀ expression ∈ statement.expressions, Arranged whole expression)
    (parts : ∀ part ∈ statement.parts, AllArranged whole part) : AllArranged whole statement := by
  rintro expression ⟨holder, outermost, isPart, stands, inside⟩
  obtain rfl | ⟨middle, member, isInner⟩ := isPart.eq_or_of_part
  · exact expressions outermost stands expression inside
  · exact parts middle member expression ⟨holder, outermost, isInner, stands, inside⟩

/-- A statement without expressions and without other statements in it. -/
theorem leaf (noExpressions : statement.expressions = []) (noParts : statement.parts = []) :
    AllArranged whole statement := by
  refine of_parts ?_ ?_
  · rw [noExpressions]
    exact List.forall_mem_nil _
  · rw [noParts]
    exact List.forall_mem_nil _

theorem conditional {place : Span} {condition : Expression} {positive : Statement}
    {negative : Option Statement} (conditionArranged : Arranged whole condition)
    (positiveArranged : AllArranged whole positive)
    (negativeArranged : ∀ other ∈ negative, AllArranged whole other) :
    AllArranged whole (.conditional place condition positive negative) :=
  .of_parts (List.forall_mem_singleton.mpr conditionArranged)
    (List.forall_mem_cons.mpr ⟨positiveArranged, fun _ member =>
      negativeArranged _ (Option.mem_toList.mp member)⟩)

end AllArranged

/-! ## Declarators -/

theorem valueType_probes : Probes whole (bound + 1) typeStarts (fun _ => Anything)
    Grammar.valueType Grammar.valueType := by
  refine .selectOnly (by decide) ?_ ?_
  · intro token starting
    obtain ⟨type, found⟩ :=
      Option.isSome_iff_exists.mp ((valueType?_isSome token.lexeme).mpr starting)
    simp only [found]
    exact .advance (.pure ⟨type, rfl, trivial⟩)
  · intro token other
    have unknown : Grammar.valueType? token.lexeme = none := by
      rw [← Option.not_isSome_iff_eq_none, valueType?_isSome]
      exact other
    simp only [unknown]
    exact ⟨trivial, trivial⟩

theorem returnType_consumes : Consumes whole (bound + 1) (fun _ => Anything) Grammar.returnType
    Grammar.returnType :=
  .branch (by decide) (Nat.le_succ _) (fun _ => .pure trivial) (.require valueType_probes)

theorem declarator_probes : Probes whole (bound + 1) declaratorStarts (fun _ => Anything)
    Grammar.declarator Grammar.declarator := by
  refine .anywhere fun place => .acceptOr (by decide) (fun _ => ?_) ?_
  · exact .bindFound (Nat.le_succ _) (valueType_probes.weaken (Nat.le_succ bound)) .fail
      fun _ type _ => Consumes.identifier.bind fun _ name _ => .pure ⟨_, rfl, trivial⟩
  · exact valueType_probes.bind (Nat.le_succ _) ⟨rfl, rfl⟩ fun _ type _ =>
      Consumes.identifier.bind fun _ name _ => .pure ⟨_, rfl, trivial⟩

/-- The parameters of a function.  Their number is bounded like a chain. -/
theorem parametersFrom_consumes {name : String} {budget budget' : Nat} (enough : bound ≤ budget)
    (enough' : bound ≤ budget') (known : List Declarator) :
    Consumes whole bound (fun _ => Anything) (Grammar.parametersFrom name budget known)
      (Grammar.parametersFrom name budget' known) := by
  induction bound generalizing budget budget' known with
  | zero => exact .zero
  | succ bound ih =>
      obtain ⟨budget, rfl⟩ := Nat.exists_eq_succ_of_ne_zero (Nat.ne_zero_of_lt enough)
      obtain ⟨budget', rfl⟩ := Nat.exists_eq_succ_of_ne_zero (Nat.ne_zero_of_lt enough')
      refine (Consumes.require declarator_probes).bind fun _ parameter _ => ?_
      split
      · exact .fail
      · refine .branch (by decide) (Nat.le_refl _) (fun _ => ?_) (.pure trivial)
        exact ih (Nat.le_of_succ_le_succ enough) (Nat.le_of_succ_le_succ enough') _

theorem parameters_consumes (enough : bound ≤ chain) (enough' : bound ≤ chain') (name : String) :
    Consumes whole bound (fun _ => Anything) (Grammar.parameters chain name)
      (Grammar.parameters chain' name) :=
  .branch (by decide) (Nat.le_succ _) (fun _ => parametersFrom_consumes enough enough' [])
    (.pure trivial)

/-! ## Sequences -/

section Statements

variable {nested nested' : Grammar.StatementRule}

theorem requiredExpression_consumes (enough : bound ≤ chain) (enough' : bound ≤ chain') :
    Consumes whole bound (Placed whole) (Grammar.requiredExpression chain)
      (Grammar.requiredExpression chain') :=
  .require (expression_probes enough enough')

theorem variableDeclaration_probes (enough : bound + 1 ≤ chain) (enough' : bound + 1 ≤ chain') :
    Probes whole (bound + 1) declaratorStarts (fun _ => AllArranged whole)
      (Grammar.variableDeclaration chain) (Grammar.variableDeclaration chain') := by
  refine declarator_probes.bind (Nat.le_succ _) ⟨rfl, rfl⟩ fun _ declarator _ =>
    .branch (by decide) (Nat.le_succ _) (fun _ => ?_) (.pure ⟨_, rfl, .leaf rfl rfl⟩)
  exact (requiredExpression_consumes enough enough').bind fun _ initial placed =>
    .pure ⟨_, rfl, .of_parts (List.forall_mem_singleton.mpr placed.arranged) nofun⟩

theorem variableStatement_probes (enough : bound + 1 ≤ chain) (enough' : bound + 1 ≤ chain') :
    Probes whole (bound + 1) declaratorStarts (fun _ => AllArranged whole)
      (Grammar.variableStatement chain) (Grammar.variableStatement chain') :=
  (variableDeclaration_probes enough enough').bind (Nat.le_succ _) ⟨rfl, rfl⟩
    fun _ _ arranged => (Consumes.expect (by decide)).bind fun _ _ _ => .pure ⟨_, rfl, arranged⟩

theorem expressionStatement_probes (enough : bound ≤ chain) (enough' : bound ≤ chain') :
    Probes whole bound expressionStarts (fun _ => AllArranged whole)
      (Grammar.expressionStatement chain) (Grammar.expressionStatement chain') :=
  (expression_probes enough enough').bind (Nat.le_succ _) ⟨rfl, rfl⟩ fun _ _ placed =>
    (Consumes.expect (by decide)).bind fun _ _ _ =>
      .pure ⟨_, rfl, .of_parts (List.forall_mem_singleton.mpr placed.arranged) nofun⟩

theorem jump_probes (enough : bound + 1 ≤ chain) (enough' : bound + 1 ≤ chain') :
    Probes whole (bound + 1) (starts .jump) (fun _ => AllArranged whole) (Grammar.jump chain)
      (Grammar.jump chain') := by
  have ended {result : Statement} (arranged : AllArranged whole result) :
      Consumes whole bound (fun _ => Found (AllArranged whole))
        (expect (.mark .semicolon) >>= fun _ => pure (some result))
        (expect (.mark .semicolon) >>= fun _ => pure (some result)) :=
    (Consumes.expect (by decide)).bind fun _ _ _ => .pure ⟨result, rfl, arranged⟩
  refine .selectOnly (by decide) ?_ ?_
  · rintro ⟨lexeme, place⟩ starting
    cases lexeme with
    | keyword word =>
        have isJump : word = .skipWord ∨ word = .stopWord ∨ word = .returnWord := by
          simpa [starts, Token.kind, Lexeme.kind] using starting
        obtain rfl | rfl | rfl := isJump
        · exact .advance (ended (.leaf rfl rfl))
        · exact .advance (ended (.leaf rfl rfl))
        · refine .advance (.bindFound (Nat.le_succ _)
            (expression_probes (Nat.le_of_succ_le enough) (Nat.le_of_succ_le enough'))
            (ended (.leaf rfl rfl)) fun _ value placed => ended ?_)
          exact .of_parts (List.forall_mem_singleton.mpr placed.arranged) (List.forall_mem_nil _)
    | _ => simp [starts, Token.kind, Lexeme.kind] at starting
  · rintro ⟨lexeme, place⟩ other
    cases lexeme with
    | keyword word =>
        cases word with
        | skipWord => simp [starts, Token.kind, Lexeme.kind] at other
        | stopWord => simp [starts, Token.kind, Lexeme.kind] at other
        | returnWord => simp [starts, Token.kind, Lexeme.kind] at other
        | _ => exact ⟨rfl, rfl⟩
    | _ => exact ⟨rfl, rfl⟩

theorem emptyStatement_probes : Probes whole (bound + 1) [.mark .semicolon]
    (fun _ => AllArranged whole) Grammar.emptyStatement Grammar.emptyStatement :=
  .anywhere fun _ => .accept (by decide) ⟨rfl, rfl⟩ fun _ =>
    .pure ⟨_, rfl, .leaf rfl rfl⟩

variable (inner : Probes whole bound statementStarts (fun _ => AllArranged whole) nested nested')
  (enough : bound + 1 ≤ chain) (enough' : bound + 1 ≤ chain')

include inner enough enough'

theorem functionDeclaration_probes : Probes whole (bound + 1) [.keyword .functionWord]
    (fun _ => AllArranged whole) (Grammar.functionDeclaration chain nested)
      (Grammar.functionDeclaration chain' nested') := by
  refine .anywhere fun place => .accept (by decide) ⟨rfl, rfl⟩ fun _ =>
    .optional (by decide) fun overrides => Consumes.identifier.bind fun _ name _ => ?_
  refine (parameters_consumes (Nat.le_of_succ_le enough) (Nat.le_of_succ_le enough') name).bind
    fun _ parameters _ => (Consumes.expect (by decide)).bind fun _ _ _ => ?_
  refine (returnType_consumes.weaken (Nat.le_succ bound)).bind fun _ returns _ =>
    (Consumes.require inner).bind fun _ body arranged => ?_
  exact .pure ⟨_, rfl, .of_parts nofun (List.forall_mem_singleton.mpr arranged)⟩

theorem matchBranch_probes : Probes whole (bound + 1) expressionStarts
    (fun _ => AllArranged whole) (Grammar.matchBranch chain nested)
      (Grammar.matchBranch chain' nested') := by
  refine .anywhere fun place => (expression_probes enough enough').bind (Nat.le_refl _)
    ⟨rfl, rfl⟩ fun _ condition placed => ?_
  refine (Consumes.expect (by decide)).bind fun _ _ _ => ?_
  refine (Consumes.require inner).bind fun _ chosen arranged => ?_
  exact (Consumes.expect (by decide)).bind fun _ _ _ =>
    .pure ⟨_, rfl, .conditional placed.arranged arranged nofun⟩

theorem matchBlock_probes : Probes whole (bound + 1) [.keyword .beginWord]
    (fun _ => AllArranged whole) (Grammar.matchBlock chain nested)
      (Grammar.matchBlock chain' nested') := by
  have eachBranch := (Consumes.manyEach (matchBranch_probes inner enough enough') enough
    enough').weaken (Nat.le_succ bound)
  refine .accept (by decide) ⟨rfl, rfl⟩ fun _ => .position fun place => ?_
  refine eachBranch.bind fun _ branches branchesArranged => ?_
  refine (Consumes.expect (by decide)).bind fun _ _ _ => .position fun defaultPlace => ?_
  refine (Consumes.require inner).bind fun _ chosen arranged => ?_
  refine (Consumes.expect (by decide)).bind fun _ _ _ =>
    (Consumes.expect (by decide)).bind fun _ _ _ => .pure ⟨_, rfl, .of_parts nofun ?_⟩
  refine List.forall_mem_append.mpr ⟨branchesArranged, List.forall_mem_singleton.mpr ?_⟩
  exact .conditional (.of_parts trivial nofun) arranged nofun

theorem patternDeclaration_probes : Probes whole (bound + 1) [.keyword .patternWord]
    (fun _ => AllArranged whole) (Grammar.patternDeclaration chain nested)
      (Grammar.patternDeclaration chain' nested') := by
  have block := (matchBlock_probes inner enough enough').weaken (Nat.le_succ bound)
  refine .anywhere fun place => .accept (by decide) ⟨rfl, rfl⟩ fun _ =>
    .optional (by decide) fun overrides => Consumes.identifier.bind fun _ name _ =>
      (Consumes.expect (by decide)).bind fun _ _ _ => ?_
  refine (Consumes.require (declarator_probes.weaken (Nat.le_succ bound))).bind
    fun _ parameter _ => .bindFound (Nat.le_succ _) block (.position fun endSpan => ?_)
      fun _ body arranged => ?_
  · exact (Consumes.expect (by decide)).bind fun _ _ _ => .pure ⟨_, rfl, .of_parts nofun
      (List.forall_mem_singleton.mpr (.leaf rfl rfl))⟩
  · exact .pure ⟨_, rfl, .of_parts nofun (List.forall_mem_singleton.mpr arranged)⟩

def declarationAlternatives (chain : Nat) (nested : Grammar.StatementRule) :
    Alternatives Statement :=
  [(declaratorStarts, Grammar.variableStatement chain),
    ([.keyword .functionWord], Grammar.functionDeclaration chain nested),
    ([.keyword .patternWord], Grammar.patternDeclaration chain nested)]

theorem declaration_probes : Probes whole (bound + 1) declarationStarts
    (fun _ => AllArranged whole) (Grammar.declaration chain nested)
      (Grammar.declaration chain' nested') :=
  .firstApplicable_cons (variableStatement_probes enough enough')
    (.firstApplicable_cons (functionDeclaration_probes inner enough enough')
      (.firstApplicable_cons (patternDeclaration_probes inner enough enough')
        .firstApplicable_nil))

def sequenceAlternatives (chain : Nat) (nested : Grammar.StatementRule) :
    Alternatives Statement :=
  [(declarationStarts, Grammar.declaration chain nested), (statementStarts, nested)]

omit inner enough enough' in
theorem sequenceMember_probes
    (inner : Probes whole bound statementStarts (fun _ => AllArranged whole) nested nested')
    (enough : bound ≤ chain) (enough' : bound ≤ chain') :
    Probes whole bound (starts .sequence) (fun _ => AllArranged whole)
      (firstApplicable ((sequenceAlternatives chain nested).map Prod.snd))
      (firstApplicable ((sequenceAlternatives chain' nested').map Prod.snd)) := by
  cases bound with
  | zero => exact .zero
  | succ bound =>
      have declarations := declaration_probes (inner.weaken (Nat.le_succ bound)) enough enough'
      have members := Probes.firstApplicable_cons declarations
        (.firstApplicable_cons inner .firstApplicable_nil)
      rwa [List.append_nil] at members

omit inner enough enough' in
theorem sequence_consumes
    (inner : Probes whole bound statementStarts (fun _ => AllArranged whole) nested nested')
    (enough : bound ≤ chain) (enough' : bound ≤ chain') :
    Consumes whole bound (fun _ => AllArranged whole) (Grammar.sequence chain nested)
      (Grammar.sequence chain' nested') := by
  refine .position fun place => ?_
  refine (Consumes.manyEach (sequenceMember_probes inner enough enough') enough enough').bind
    fun _ children arranged => ?_
  exact .pure (.of_parts nofun arranged)

/-! ## Statements -/

theorem block_probes : Probes whole (bound + 1) [.keyword .beginWord]
    (fun _ => AllArranged whole) (Grammar.block chain nested) (Grammar.block chain' nested') :=
  .accept (by decide) ⟨rfl, rfl⟩ fun _ => (sequence_consumes inner (Nat.le_of_succ_le enough)
    (Nat.le_of_succ_le enough')).bind fun _ body arranged =>
      (Consumes.expect (by decide)).bind fun _ _ _ => .pure ⟨body, rfl, arranged⟩

omit enough enough' in
theorem branches_consumes (place : Span) {condition : Expression}
    (conditionArranged : Arranged whole condition) :
    Consumes whole bound (fun _ => Found (AllArranged whole))
      (Grammar.branches nested place condition) (Grammar.branches nested' place condition) := by
  refine (Consumes.require inner).bind fun _ positive positiveArranged =>
    .branch (by decide) (Nat.le_succ _) (fun _ => ?_)
      (.pure ⟨_, rfl, .conditional conditionArranged positiveArranged nofun⟩)
  exact (Consumes.require inner).bind fun _ negative negativeArranged =>
    .pure ⟨_, rfl, .conditional conditionArranged positiveArranged fun other isOther =>
      Option.mem_some.mp isOther ▸ negativeArranged⟩

theorem conditional_probes : Probes whole (bound + 1) [.keyword .ifWord]
    (fun _ => AllArranged whole) (Grammar.conditional chain nested)
      (Grammar.conditional chain' nested') := by
  refine .anywhere fun place => .accept (by decide) ⟨rfl, rfl⟩ fun _ => ?_
  refine (requiredExpression_consumes (Nat.le_of_succ_le enough)
    (Nat.le_of_succ_le enough')).bind fun _ condition placed => ?_
  exact (Consumes.expect (by decide)).bind fun _ _ _ =>
    branches_consumes inner place placed.arranged

theorem whileLoop_probes : Probes whole (bound + 1) [.keyword .whileWord]
    (fun _ => AllArranged whole) (Grammar.whileLoop chain nested)
      (Grammar.whileLoop chain' nested') := by
  refine .anywhere fun place => .accept (by decide) ⟨rfl, rfl⟩ fun _ => ?_
  refine (requiredExpression_consumes (Nat.le_of_succ_le enough)
    (Nat.le_of_succ_le enough')).bind fun _ condition placed => ?_
  refine (Consumes.expect (by decide)).bind fun _ _ _ =>
    (Consumes.require inner).bind fun _ body arranged => ?_
  exact .pure ⟨_, rfl, .of_parts (List.forall_mem_singleton.mpr placed.arranged)
    (List.forall_mem_singleton.mpr arranged)⟩

theorem forLoop_probes : Probes whole (bound + 1) [.keyword .forWord]
    (fun _ => AllArranged whole) (Grammar.forLoop chain nested)
      (Grammar.forLoop chain' nested') := by
  have declared : Probes whole bound declaratorStarts (fun _ => AllArranged whole)
      (Grammar.variableDeclaration chain) (Grammar.variableDeclaration chain') :=
    (variableDeclaration_probes enough enough').weaken (Nat.le_succ bound)
  have loops := (whileLoop_probes inner enough enough').weaken (Nat.le_succ bound)
  refine .anywhere fun place => .accept (by decide) ⟨rfl, rfl⟩ fun _ => ?_
  refine (Consumes.require declared).bind fun _ declaration declarationArranged =>
    (Consumes.require loops).bind fun _ loop loopArranged => ?_
  exact .pure ⟨_, rfl, .of_parts nofun (List.forall_mem_cons.mpr
    ⟨declarationArranged, List.forall_mem_singleton.mpr loopArranged⟩)⟩

theorem matching_probes : Probes whole (bound + 1) [.keyword .matchWord]
    (fun _ => AllArranged whole) (Grammar.matching chain nested)
      (Grammar.matching chain' nested') := by
  have body := (matchBlock_probes inner enough enough').weaken (Nat.le_succ bound)
  refine .anywhere fun place => .accept (by decide) ⟨rfl, rfl⟩ fun _ => ?_
  refine (Consumes.expect (by decide)).bind fun _ _ _ =>
    (requiredExpression_consumes (Nat.le_of_succ_le enough) (Nat.le_of_succ_le enough')).bind
      fun _ subject placed => (Consumes.require body).bind fun _ block arranged => ?_
  exact .pure ⟨_, rfl, .of_parts (List.forall_mem_singleton.mpr placed.arranged)
    (List.forall_mem_singleton.mpr arranged)⟩

omit inner enough enough' in
def statementAlternatives (chain : Nat) (nested : Grammar.StatementRule) :
    Alternatives Statement :=
  [(starts .compound, Grammar.block chain nested),
    (starts .expressionStatement, Grammar.expressionStatement chain),
    (starts .conditional, Grammar.conditional chain nested),
    (starts .forLoop, Grammar.forLoop chain nested),
    (starts .whileLoop, Grammar.whileLoop chain nested), (starts .jump, Grammar.jump chain),
    (starts .matching, Grammar.matching chain nested), (starts .empty, Grammar.emptyStatement)]

theorem statementWith_probes : Probes whole (bound + 1) statementStarts
    (fun _ => AllArranged whole) (Grammar.statementWith chain nested)
      (Grammar.statementWith chain' nested') := by
  have statements := Probes.firstApplicable_cons (block_probes inner enough enough')
    (.firstApplicable_cons (expressionStatement_probes enough enough')
    (.firstApplicable_cons (conditional_probes inner enough enough')
    (.firstApplicable_cons (forLoop_probes inner enough enough')
    (.firstApplicable_cons (whileLoop_probes inner enough enough')
    (.firstApplicable_cons (jump_probes enough enough')
    (.firstApplicable_cons (matching_probes inner enough enough')
    (.firstApplicable_cons emptyStatement_probes .firstApplicable_nil)))))))
  exact statements

end Statements

/-- Statements, within a bound that covers the number of tokens. -/
theorem statement_probes {depth depth' : Nat} (enough : bound ≤ depth)
    (enough' : bound ≤ depth') : Probes whole bound statementStarts
      (fun _ => AllArranged whole) (Grammar.statement depth) (Grammar.statement depth') := by
  induction bound generalizing depth depth' with
  | zero => exact .zero
  | succ bound ih =>
      obtain ⟨depth, rfl⟩ := Nat.exists_eq_succ_of_ne_zero (Nat.ne_zero_of_lt enough)
      obtain ⟨depth', rfl⟩ := Nat.exists_eq_succ_of_ne_zero (Nat.ne_zero_of_lt enough')
      exact statementWith_probes (ih (Nat.le_of_succ_le_succ enough)
        (Nat.le_of_succ_le_succ enough')) enough enough'

end Syntax

end Plainspoken
