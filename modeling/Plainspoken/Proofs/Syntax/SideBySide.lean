import Plainspoken.Proofs.Syntax.Counterparts

/-!
# Reading two token sequences at once

A pairing says which tokens that are left of one sequence stand opposite which tokens that
are left of the other, and which failures correspond.  It has to be kept when a token is used
on both sides.  Then every rule of the grammar keeps it, with corresponding trees as results.

What follows from this is up to the pairing.  Two sequences with the same lexemes are read
as the same program.  A sequence paired with itself, together with something that holds of
all of its tokens or of every place where reading can fail, gives invariants of the grammar.
-/

namespace Plainspoken

open List (Forall₂)

/-- Readings that both succeed, with related results, or both fail, in related ways. -/
inductive Abreast {ε α β : Type} (failed : ε → ε → Prop) (related : α → β → Prop) :
    Except ε α → Except ε β → Prop where
  | ok {left : α} {right : β} (isRelated : related left right) :
      Abreast failed related (.ok left) (.ok right)
  | error {left right : ε} (areFailed : failed left right) :
      Abreast failed related (.error left) (.error right)

theorem Abreast.mono {ε α β : Type} {failed : ε → ε → Prop} {related related' : α → β → Prop}
    {left : Except ε α} {right : Except ε β} (abreast : Abreast failed related left right)
    (implied : ∀ result result', related result result' → related' result result') :
    Abreast failed related' left right := by
  cases abreast with
  | ok isRelated => exact .ok (implied _ _ isRelated)
  | error areFailed => exact .error areFailed

theorem Abreast.map {ε α β γ δ : Type} {failed : ε → ε → Prop} {related : α → β → Prop}
    {relatedThen : γ → δ → Prop} {left : Except ε α} {right : Except ε β} {leftMap : α → γ}
    {rightMap : β → δ} (abreast : Abreast failed related left right)
    (implied : ∀ result result', related result result' →
      relatedThen (leftMap result) (rightMap result')) :
    Abreast failed relatedThen (left.map leftMap) (right.map rightMap) := by
  cases abreast with
  | ok isRelated => exact .ok (implied _ _ isRelated)
  | error areFailed => exact .error areFailed

namespace Rule

def first (ending : StreamEnd) (tokens : List Token) : Token :=
  tokens.headD (endToken ending)

/-- The failure that the grammar reports at a token. -/
def failureAt (cause : GrammarCause) (token : Token) : BuildError :=
  .grammar ⟨cause, token.span, token.display⟩

/-- Two sequences of tokens that are read side by side. -/
structure Pairing (known : Lexeme → Prop) where
  leftEnding : StreamEnd
  rightEnding : StreamEnd
  /-- The tokens left on one side stand opposite those left on the other. -/
  Opposite : List Token → List Token → Prop
  /-- The failures correspond. -/
  Failed : BuildError → BuildError → Prop
  lexeme_eq {left right : List Token} : Opposite left right →
    (first leftEnding left).lexeme = (first rightEnding right).lexeme
  isKnown {left right : List Token} : Opposite left right → known (first leftEnding left).lexeme
  advance {left right : List Token} : Opposite left right →
    Abreast Failed (fun after after' => Opposite after.2 after'.2)
      (Rule.advance leftEnding left) (Rule.advance rightEnding right)
  fail {left right : List Token} (cause : GrammarCause) : Opposite left right →
    Failed (failureAt cause (first leftEnding left)) (failureAt cause (first rightEnding right))

namespace Pairing

variable {known : Lexeme → Prop} (pairing : Pairing known) {α β γ δ : Type}

/-- The rules read alike from tokens that stand opposite each other, with related results,
and they leave tokens that stand opposite each other again. -/
def Reads (related : α → β → Prop) (left : Rule α) (right : Rule β) : Prop :=
  ∀ ⦃tokens tokens' : List Token⦄, pairing.Opposite tokens tokens' →
    Abreast pairing.Failed
      (fun after after' => related after.1 after'.1 ∧ pairing.Opposite after.2 after'.2)
      (left pairing.leftEnding tokens) (right pairing.rightEnding tokens')

/-- The rule applies on both sides, with related results, or on neither. -/
def Finds (related : α → α → Prop) (rule : Rule (Option α)) : Prop :=
  pairing.Reads (Option.Rel related) rule rule

end Pairing

namespace Pairing.Reads

variable {known : Lexeme → Prop} {pairing : Pairing known} {α β γ δ : Type}
variable {related : α → β → Prop} {relatedThen : γ → δ → Prop}

theorem pure {left : α} {right : β} (isRelated : related left right) :
    pairing.Reads related (Pure.pure left) (Pure.pure right) :=
  fun _ _ opposite => .ok ⟨isRelated, opposite⟩

theorem bind {left : Rule α} {right : Rule β} {leftThen : α → Rule γ} {rightThen : β → Rule δ}
    (first : pairing.Reads related left right)
    (second : ∀ result result', related result result' →
      pairing.Reads relatedThen (leftThen result) (rightThen result')) :
    pairing.Reads relatedThen (left >>= leftThen) (right >>= rightThen) := by
  intro tokens tokens' opposite
  change Abreast _ _ (Rule.andThen left leftThen _ _) (Rule.andThen right rightThen _ _)
  have outcome := first opposite
  unfold Rule.andThen
  generalize left pairing.leftEnding tokens = leftOutcome at outcome ⊢
  generalize right pairing.rightEnding tokens' = rightOutcome at outcome ⊢
  cases outcome with
  | ok both => exact second _ _ both.1 both.2
  | error areFailed => exact .error areFailed

theorem mono {related' : α → β → Prop} {left : Rule α} {right : Rule β}
    (reads : pairing.Reads related left right)
    (implied : ∀ result result', related result result' → related' result result') :
    pairing.Reads related' left right :=
  fun _ _ opposite => (reads opposite).mono fun _ _ both => ⟨implied _ _ both.1, both.2⟩

/-- Two rules on each side, of which the same test selects. -/
theorem branch {test : Rule Bool} {positive negative : Rule γ} {positive' negative' : Rule δ}
    (tests : pairing.Reads Eq test test) (positives : pairing.Reads relatedThen positive positive')
    (negatives : pairing.Reads relatedThen negative negative') :
    pairing.Reads relatedThen
      (test >>= fun holds => if holds = true then positive else negative)
      (test >>= fun holds => if holds = true then positive' else negative') := by
  refine tests.bind fun holds holds' same => ?_
  subst same
  cases holds with
  | true => exact positives
  | false => exact negatives

/-- A rule that may not apply, and what follows it in either case. -/
theorem bindFound {left : Rule (Option α)} {right : Rule (Option β)}
    {leftThen : Option α → Rule γ} {rightThen : Option β → Rule δ}
    (first : pairing.Reads (Option.Rel related) left right)
    (absent : pairing.Reads relatedThen (leftThen none) (rightThen none))
    (present : ∀ value value', related value value' →
      pairing.Reads relatedThen (leftThen (some value)) (rightThen (some value'))) :
    pairing.Reads relatedThen (left >>= leftThen) (right >>= rightThen) := by
  refine first.bind fun found found' bothFound => ?_
  cases bothFound with
  | none => exact absent
  | some isRelated => exact present _ _ isRelated

/-! ## Single tokens -/

theorem current : pairing.Reads (fun token token' => token.lexeme = token'.lexeme ∧
    known token.lexeme) Rule.current Rule.current :=
  fun _ _ opposite => .ok ⟨⟨pairing.lexeme_eq opposite, pairing.isKnown opposite⟩, opposite⟩

theorem position : pairing.Reads (fun _ _ => True) Rule.position Rule.position :=
  current.bind fun _ _ _ => .pure trivial

theorem advance : pairing.Reads (fun _ _ => True) Rule.advance Rule.advance :=
  fun _ _ opposite => (pairing.advance opposite).mono fun _ _ after => ⟨trivial, after⟩

theorem fail (cause : GrammarCause) :
    pairing.Reads related (Rule.fail cause) (Rule.fail cause) :=
  fun _ _ opposite => .error (pairing.fail cause opposite)

/-- A token is used, and the results do not depend on what follows it. -/
theorem used {left : α} {right : β} (isRelated : related left right) :
    pairing.Reads related (Rule.advance >>= fun _ => Pure.pure left)
      (Rule.advance >>= fun _ => Pure.pure right) :=
  advance.bind fun _ _ _ => .pure isRelated

theorem accept (kind : TokenKind) : pairing.Reads Eq (Rule.accept kind) (Rule.accept kind) := by
  have found : pairing.Reads Eq (Rule.acceptAny [kind]) (Rule.acceptAny [kind]) := by
    refine current.bind fun token token' ⟨same, _⟩ => ?_
    simp only [Token.kind, same]
    by_cases found : [kind].contains token'.lexeme.kind = true
    · simp only [found, if_true]
      exact .used rfl
    · simp only [found]
      exact .pure rfl
  exact found.bind fun _ _ same => .pure (congrArg _ same)

theorem expect (kind : TokenKind) :
    pairing.Reads (fun _ _ => True) (Rule.expect kind) (Rule.expect kind) := by
  refine (accept kind).bind fun isThere isThere' same => ?_
  subst same
  cases isThere with
  | true => exact .pure trivial
  | false => exact .fail _

theorem identifier : pairing.Reads (fun name name' => name = name' ∧ known (.identifier name))
    Rule.identifier Rule.identifier := by
  refine current.bind fun token token' ⟨same, isKnown⟩ => ?_
  rw [same] at isKnown ⊢
  split
  · next name isName => exact .used ⟨rfl, isName ▸ isKnown⟩
  · exact .fail _

/-! ## Sequences and alternatives -/

theorem require {left : Rule (Option α)} {right : Rule (Option β)}
    (found : pairing.Reads (Option.Rel related) left right) (symbol : Symbol) :
    pairing.Reads related (Rule.require symbol left) (Rule.require symbol right) :=
  found.bindFound (.fail _) fun _ _ isRelated => .pure isRelated

theorem firstApplicable {related : α → α → Prop} {rules : List (Rule (Option α))}
    (find : ∀ rule ∈ rules, pairing.Finds related rule) :
    pairing.Finds related (Rule.firstApplicable rules) := by
  induction rules with
  | nil => exact .pure .none
  | cons rule rules ih =>
      obtain ⟨firstFinds, othersFind⟩ := List.forall_mem_cons.mp find
      exact firstFinds.bindFound (ih othersFind) fun _ _ isRelated => .pure (.some isRelated)

theorem many {left : Rule (Option α)} {right : Rule (Option β)}
    (found : pairing.Reads (Option.Rel related) left right) (fuel : Nat) :
    pairing.Reads (Forall₂ related) (Rule.many fuel left) (Rule.many fuel right) := by
  induction fuel with
  | zero => exact .pure .nil
  | succ fuel ih =>
      exact found.bindFound (.pure .nil) fun _ _ isRelated => ih.bind fun _ _ areRelated =>
        .pure (.cons isRelated areRelated)

end Pairing.Reads

end Rule

namespace Grammar

open Rule

variable {known : Lexeme → Prop} {pairing : Pairing known}

/-! ## Expressions -/

section Expressions

variable {fuel : Nat} {nested : ExpressionRule}
variable (nestedFinds : pairing.Finds (Expression.Counterpart known) nested)

include nestedFinds

theorem callArguments_reads : pairing.Reads (Forall₂ (Expression.Counterpart known))
    (callArguments fuel nested) (callArguments fuel nested) := by
  have further : pairing.Finds (Expression.Counterpart known) (furtherArgument nested) :=
    .branch (.accept _) ((nestedFinds.require _).bind fun _ _ same => .pure (.some same))
      (.pure .none)
  refine .branch (.accept _) ?_ (.pure .nil)
  exact (nestedFinds.require _).bind fun _ _ first => (further.many fuel).bind fun _ _ others =>
    .pure (.cons first others)

theorem callFrom_reads (place place' : Span) : pairing.Reads (Expression.Counterpart known)
    (callFrom fuel nested place) (callFrom fuel nested place') := by
  refine .bind .identifier fun name name' sameName => ?_
  obtain ⟨rfl, isKnown⟩ := sameName
  refine (callArguments_reads nestedFinds).bind fun arguments arguments' paired => ?_
  obtain ⟨sameLength, each⟩ := List.forall₂_iff_zip.mp paired
  exact .bind (.expect _) fun _ _ _ => .pure (.call isKnown sameLength fun _ _ => each)

theorem primary_finds : pairing.Finds (Expression.Counterpart known) (primary fuel nested) := by
  refine .bind .current fun token token' ⟨same, isKnown⟩ => ?_
  have literal (value : Value) (isValue : token'.lexeme = value.lexeme) :
      pairing.Reads (Option.Rel (Expression.Counterpart known))
        (Rule.advance >>= fun _ => Pure.pure (some (.literal token.span value)))
        (Rule.advance >>= fun _ => Pure.pure (some (.literal token'.span value))) :=
    .used (.some (.literal (isValue ▸ same ▸ isKnown)))
  rw [same] at isKnown ⊢
  dsimp only
  split
  · next amount isNumber => exact literal (.number amount) isNumber
  · next content isText => exact literal (.text content) isText
  · next holds isFact => exact literal (.fact holds) isFact
  · next isNone => exact literal .nothing isNone
  · next name isName => exact .used (.some (.identifier (isName ▸ isKnown)))
  · refine .bind .advance fun _ _ _ => .bind ?_ fun _ _ inner => .pure (.some inner)
    exact (nestedFinds.require _).bind fun _ _ inner => .bind (.expect _) fun _ _ _ => .pure inner
  · exact .bind .advance fun _ _ _ => (callFrom_reads nestedFinds _ _).bind fun _ _ called =>
      .pure (.some called)
  · exact .pure .none

theorem unary_finds : pairing.Finds (Expression.Counterpart known) (unary fuel nested) := by
  have noneTestFinds : pairing.Finds (Expression.Counterpart known) (noneTest fuel nested) :=
    .bind .position fun _ _ _ => .bindFound (primary_finds nestedFinds) (.pure .none)
      fun _ _ operands => .branch (.accept _) (.pure (.some (.noneTest operands)))
        (.pure (.some operands))
  refine .bind .current fun token token' ⟨same, _⟩ => ?_
  rw [same]
  split
  · exact .bind .advance fun _ _ _ => (noneTestFinds.require _).bind fun _ _ operands =>
      .pure (.some (.unary operands))
  · exact noneTestFinds

omit nestedFinds in
theorem binaryLevel_finds {operand : ExpressionRule}
    (operandFinds : pairing.Finds (Expression.Counterpart known) operand)
    (table : OperatorTable) :
    pairing.Finds (Expression.Counterpart known) (binaryLevel fuel operand table) := by
  let SamePart (part part' : BinaryOperator × Expression) : Prop :=
    part.1 = part'.1 ∧ part.2.Counterpart known part'.2
  have partFinds : pairing.Finds SamePart (operatorAndOperand table operand) := by
    refine .bind .current fun token token' ⟨same, _⟩ => ?_
    simp only [Token.kind, same]
    split
    · exact .pure .none
    · exact .bind .advance fun _ _ _ => (operandFinds.require _).bind fun _ _ operands =>
        .pure (.some ⟨rfl, operands⟩)
  refine operandFinds.bindFound (.pure .none) fun _ _ firsts =>
    (partFinds.many fuel).bind fun _ _ parts => .pure (.some ?_)
  refine List.rel_foldl ?_ firsts parts
  rintro left left' lefts ⟨operator, right⟩ ⟨_, right'⟩ ⟨rfl, rights⟩
  exact .binary lefts rights

theorem binary_finds : pairing.Finds (Expression.Counterpart known) (binary fuel nested) := by
  have levels (tables : List OperatorTable) {operand : ExpressionRule}
      (operandFinds : pairing.Finds (Expression.Counterpart known) operand) :
      pairing.Finds (Expression.Counterpart known)
        (tables.foldl (binaryLevel fuel) operand) := by
    induction tables generalizing operand with
    | nil => exact operandFinds
    | cons table tables ih => exact ih (binaryLevel_finds operandFinds table)
  exact levels binaryLevels (unary_finds nestedFinds)

theorem ternary_finds : pairing.Finds (Expression.Counterpart known) (ternary fuel nested) := by
  let SamePart (part part' : Expression × Option Expression) : Prop :=
    part.1.Counterpart known part'.1 ∧
      Option.Rel (Expression.Counterpart known) part.2 part'.2
  have operand : pairing.Finds (Expression.Counterpart known) (binary fuel nested) :=
    binary_finds nestedFinds
  have partFinds : pairing.Finds SamePart (ternaryPart fuel nested) := by
    refine .branch (.accept _) ((operand.require _).bind fun _ _ yeses => ?_) (.pure .none)
    exact .branch (.accept _)
      ((operand.require _).bind fun _ _ noes => .pure (.some ⟨yeses, .some noes⟩))
      (.pure (.some ⟨yeses, .none⟩))
  refine operand.bindFound (.pure .none) fun _ _ firsts =>
    (partFinds.many fuel).bind fun _ _ parts => .pure (.some ?_)
  refine List.rel_foldl ?_ firsts parts
  rintro condition condition' conditions ⟨yes, no⟩ ⟨yes', no'⟩ ⟨yeses, noes⟩
  obtain ⟨sameNo, noes⟩ := optionRel_iff.mp noes
  exact .ternary conditions yeses sameNo noes

theorem pipe_finds : pairing.Finds (Expression.Counterpart known) (pipe fuel nested) := by
  let SamePart (part part' : Option Expression × Option Expression) : Prop :=
    Option.Rel (Expression.Counterpart known) part.1 part'.1 ∧
      Option.Rel (Expression.Counterpart known) part.2 part'.2 ∧
      (part.1.isSome = true ∨ part.2.isSome = true)
  have operand : pairing.Finds (Expression.Counterpart known) (ternary fuel nested) :=
    ternary_finds nestedFinds
  have partFinds : pairing.Finds SamePart (pipePart fuel nested) := by
    refine .branch (.accept _) ((operand.require _).bind fun _ _ successes => ?_) ?_
    · exact .branch (.accept _)
        ((operand.require _).bind fun _ _ failures =>
          .pure (.some ⟨.some successes, .some failures, .inl rfl⟩))
        (.pure (.some ⟨.some successes, .none, .inl rfl⟩))
    · exact .branch (.accept _)
        ((operand.require _).bind fun _ _ failures =>
          .pure (.some ⟨.none, .some failures, .inr rfl⟩))
        (.pure .none)
  refine operand.bindFound (.pure .none) fun _ _ firsts =>
    (partFinds.many fuel).bind fun _ _ parts => .pure (.some ?_)
  refine List.rel_foldl ?_ firsts parts
  rintro first first' firsts ⟨success, failure⟩ ⟨success', failure'⟩ ⟨successes, failures, some⟩
  obtain ⟨sameSuccess, successes⟩ := optionRel_iff.mp successes
  obtain ⟨sameFailure, failures⟩ := optionRel_iff.mp failures
  exact .pipe firsts sameSuccess successes sameFailure failures some

omit nestedFinds in
theorem joinAssignments_counterpart {first first' : Expression} {others others' : List Expression}
    (firsts : first.Counterpart known first')
    (paired : Forall₂ (Expression.Counterpart known) others others') :
    (joinAssignments first others).Counterpart known (joinAssignments first' others') := by
  induction paired generalizing first first' with
  | nil => exact firsts
  | cons seconds _ ih => exact .assign firsts seconds (ih seconds)

theorem assignment_finds :
    pairing.Finds (Expression.Counterpart known) (assignment fuel nested) := by
  have operand : pairing.Finds (Expression.Counterpart known) (pipe fuel nested) :=
    pipe_finds nestedFinds
  have partFinds : pairing.Finds (Expression.Counterpart known) (assignedPart fuel nested) :=
    .branch (.accept _) ((operand.require _).bind fun _ _ values => .pure (.some values))
      (.pure .none)
  exact operand.bindFound (.pure .none) fun _ _ firsts => (partFinds.many fuel).bind
    fun _ _ others => .pure (.some (joinAssignments_counterpart firsts others))

end Expressions

theorem expression_finds (fuel : Nat) :
    pairing.Finds (Expression.Counterpart known) (expression fuel) := by
  induction fuel with
  | zero => exact .pure .none
  | succ fuel ih => exact assignment_finds ih

theorem requiredExpression_reads (fuel : Nat) :
    pairing.Reads (Expression.Counterpart known) (requiredExpression fuel)
      (requiredExpression fuel) :=
  (expression_finds fuel).require _

/-! ## Declarations -/

theorem valueType_finds :
    pairing.Finds (fun type type' => type = type' ∧ type.isDeclared = true) valueType := by
  refine .bind .current fun token token' ⟨same, _⟩ => ?_
  rw [same]
  split
  · exact .pure .none
  · next type isType =>
    refine .used (.some ⟨rfl, ?_⟩)
    unfold valueType? at isType
    split at isType <;> cases isType <;> rfl

theorem declarator_finds : pairing.Finds (Declarator.Counterpart known) declarator := by
  refine .bind .position fun place place' _ => .bind (.accept _) fun isMutable isMutable' same => ?_
  subst same
  refine valueType_finds.bindFound ?_ fun type type' sameType => ?_
  · cases isMutable with
    | true => exact .fail _
    | false => exact .pure .none
  · obtain ⟨rfl, declared⟩ := sameType
    exact .bind .identifier fun name name' ⟨sameName, isKnown⟩ =>
      .pure (.some ⟨rfl, rfl, sameName, declared, isKnown⟩)

theorem variableDeclaration_finds (fuel : Nat) :
    pairing.Finds (Statement.Counterpart known .member) (variableDeclaration fuel) :=
  declarator_finds.bindFound (.pure .none) fun _ _ declarators => .branch (.accept _)
    ((requiredExpression_reads fuel).bind fun _ _ initials =>
      .pure (.some (.binding declarators (.some initials))))
    (.pure (.some (.binding declarators .none)))

/-- Parameters that correspond to each other and have names of their own. -/
def SameParameters (known : Lexeme → Prop) (parameters parameters' : List Declarator) : Prop :=
  Forall₂ (Declarator.Counterpart known) parameters parameters' ∧
    (parameters.map Declarator.name).Nodup

private theorem any_name_eq {parameters parameters' : List Declarator}
    (paired : Forall₂ (Declarator.Counterpart known) parameters parameters') (name : String) :
    parameters.any (·.name == name) = parameters'.any (·.name == name) := by
  induction paired with
  | nil => rfl
  | cons same _ ih => simp only [List.any_cons, same.name, ih]

theorem parametersFrom_reads (function : String) (budget : Nat)
    {parameters parameters' : List Declarator}
    (same : SameParameters known parameters parameters') :
    pairing.Reads (SameParameters known) (parametersFrom function budget parameters)
      (parametersFrom function budget parameters') := by
  induction budget generalizing parameters parameters' with
  | zero => exact .fail _
  | succ budget ih =>
      refine (declarator_finds.require _).bind fun parameter parameter' sameParameter => ?_
      rw [← any_name_eq same.1, ← sameParameter.name]
      split
      · exact .fail _
      · next absent =>
        -- the name of the next parameter is none of those before it
        have extended : SameParameters known (parameters ++ [parameter])
            (parameters' ++ [parameter']) := by
          refine ⟨List.rel_append same.1 (.cons sameParameter .nil), ?_⟩
          have fresh : parameter.name ∉ parameters.map Declarator.name := by
            simpa using absent
          simpa [List.nodup_append, same.2] using fresh
        exact .branch (.accept _) (ih extended) (.pure extended)

theorem parameters_reads (fuel : Nat) (function : String) :
    pairing.Reads (SameParameters known) (parameters fuel function) (parameters fuel function) :=
  .branch (.accept _) (parametersFrom_reads function fuel ⟨.nil, .nil⟩) (.pure ⟨.nil, .nil⟩)

theorem returnType_reads : pairing.Reads (fun type type' => type = type' ∧
    (type.isDeclared = true ∨ type = .nothing)) returnType returnType :=
  .branch (.accept _) (.pure ⟨rfl, .inr rfl⟩)
    ((valueType_finds.require _).mono fun _ _ ⟨same, declared⟩ => ⟨same, .inl declared⟩)

/-! ## Statements -/

section Statements

variable {fuel : Nat} {nested : StatementRule}
variable (nestedFinds : pairing.Finds (Statement.Counterpart known .statement) nested)

include nestedFinds

theorem functionDeclaration_finds :
    pairing.Finds (Statement.Counterpart known .member) (functionDeclaration fuel nested) := by
  refine .bind .position fun place place' _ => .branch (.accept _) ?_ (.pure .none)
  refine .bind (.accept _) fun overrides overrides' sameOverrides =>
    .bind .identifier fun name name' ⟨sameName, isKnown⟩ => ?_
  subst sameName
  refine (parameters_reads fuel name).bind fun _ _ ⟨parameters, distinct⟩ =>
    .bind (.expect _) fun _ _ _ => returnType_reads.bind fun _ _ ⟨returns, returned⟩ =>
      (nestedFinds.require _).bind fun _ _ bodies => .pure (.some (.function ?_ bodies))
  exact ⟨rfl, sameOverrides, returns, parameters, isKnown, distinct, returned⟩

theorem matchBranch_finds :
    pairing.Finds (Statement.Counterpart known .branch) (matchBranch fuel nested) := by
  refine .bind .position fun _ _ _ => (expression_finds fuel).bindFound (.pure .none)
    fun _ _ conditions => ?_
  exact .bind (.expect _) fun _ _ _ => (nestedFinds.require _).bind fun _ _ chosens =>
    .bind (.expect _) fun _ _ _ => .pure (.some (.branch conditions chosens))

theorem matchBlock_finds :
    pairing.Finds (Statement.Counterpart known .block) (matchBlock fuel nested) := by
  refine .branch (.accept _) ?_ (.pure .none)
  refine .bind .position fun _ _ _ => ((matchBranch_finds nestedFinds).many fuel).bind
    fun _ _ paired => .bind (.expect _) fun _ _ _ => .bind .position fun _ _ _ =>
      (nestedFinds.require _).bind fun _ _ chosens => .bind (.expect _) fun _ _ _ =>
        .bind (.expect _) fun _ _ _ => .pure (.some ?_)
  obtain ⟨sameLength, each⟩ := List.forall₂_iff_zip.mp paired
  exact .block sameLength (fun _ _ => each) chosens

theorem patternDeclaration_finds :
    pairing.Finds (Statement.Counterpart known .member) (patternDeclaration fuel nested) := by
  refine .bind .position fun place place' _ => .branch (.accept _) ?_ (.pure .none)
  refine .bind (.accept _) fun overrides overrides' sameOverrides =>
    .bind .identifier fun name name' ⟨sameName, isKnown⟩ => .bind (.expect _) fun _ _ _ =>
      (declarator_finds.require _).bind fun parameter parameter' parameters => ?_
  have signatures : PatternSignature.Counterpart known ⟨place, name, overrides, parameter⟩
      ⟨place', name', overrides', parameter'⟩ :=
    ⟨sameName, sameOverrides, parameters, isKnown⟩
  refine (matchBlock_finds nestedFinds).bindFound ?_ fun _ _ bodies =>
    .pure (.some (.pattern signatures bodies))
  exact .bind .position fun _ _ _ => .bind (.expect _) fun _ _ _ =>
    .pure (.some (.forwardPattern signatures))

theorem sequence_reads : pairing.Reads (Statement.Counterpart known .statement)
    (sequence fuel nested) (sequence fuel nested) := by
  have variableFinds : pairing.Finds (Statement.Counterpart known .member)
      (variableStatement fuel) :=
    (variableDeclaration_finds fuel).bindFound (.pure .none) fun _ _ declarations =>
      .bind (.expect _) fun _ _ _ => .pure (.some declarations)
  have declarationFinds : pairing.Finds (Statement.Counterpart known .member)
      (declaration fuel nested) := by
    apply Pairing.Reads.firstApplicable
    simp only [List.forall_mem_cons]
    exact ⟨variableFinds, functionDeclaration_finds nestedFinds,
      patternDeclaration_finds nestedFinds, List.forall_mem_nil _⟩
  have memberFinds : pairing.Finds (Statement.Counterpart known .member) nested := by
    refine nestedFinds.mono fun _ _ found => ?_
    cases found with
    | none => exact .none
    | some statements => exact .some (.member statements)
  have childFinds : pairing.Finds (Statement.Counterpart known .member)
      (Rule.firstApplicable [declaration fuel nested, nested]) := by
    apply Pairing.Reads.firstApplicable
    simp only [List.forall_mem_cons]
    exact ⟨declarationFinds, memberFinds, List.forall_mem_nil _⟩
  refine .bind .position fun _ _ _ => (childFinds.many fuel).bind fun _ _ paired => .pure ?_
  obtain ⟨sameLength, each⟩ := List.forall₂_iff_zip.mp paired
  exact .compound sameLength fun _ _ => each

theorem conditional_finds :
    pairing.Finds (Statement.Counterpart known .statement) (conditional fuel nested) := by
  refine .bind .position fun place place' _ => .branch (.accept _) ?_ (.pure .none)
  refine (requiredExpression_reads fuel).bind fun _ _ conditions => .bind (.expect _) fun _ _ _ =>
    (nestedFinds.require _).bind fun _ _ positives => .branch (.accept _) ?_ ?_
  · refine (nestedFinds.require _).bind fun negative negative' negatives => .pure (.some ?_)
    obtain ⟨sameNegative, negatives⟩ := optionRel_iff.mp (.some negatives)
    exact .conditional conditions positives sameNegative negatives
  · exact .pure (.some (.conditional conditions positives rfl nofun))

theorem whileLoop_finds :
    pairing.Finds (Statement.Counterpart known .statement) (whileLoop fuel nested) := by
  refine .bind .position fun _ _ _ => .branch (.accept _) ?_ (.pure .none)
  exact (requiredExpression_reads fuel).bind fun _ _ conditions => .bind (.expect _) fun _ _ _ =>
    (nestedFinds.require _).bind fun _ _ bodies => .pure (.some (.loop conditions bodies))

theorem forLoop_finds :
    pairing.Finds (Statement.Counterpart known .statement) (forLoop fuel nested) := by
  refine .bind .position fun _ _ _ => .branch (.accept _) ?_ (.pure .none)
  refine ((variableDeclaration_finds fuel).require _).bind fun _ _ declarations =>
    ((whileLoop_finds nestedFinds).require _).bind fun _ _ loops => .pure (.some ?_)
  obtain ⟨sameLength, each⟩ :=
    List.forall₂_iff_zip.mp (.cons declarations (.cons (.member loops) .nil))
  exact .compound sameLength fun _ _ => each

omit nestedFinds in
theorem jump_finds : pairing.Finds (Statement.Counterpart known .statement) (jump fuel) := by
  refine .bind .current fun token token' ⟨same, _⟩ => ?_
  rw [same]
  split
  · exact .bind .advance fun _ _ _ => .bind (.expect _) fun _ _ _ => .pure (.some .skip)
  · exact .bind .advance fun _ _ _ => .bind (.expect _) fun _ _ _ => .pure (.some .stop)
  · exact .bind .advance fun _ _ _ => (expression_finds fuel).bind fun _ _ values =>
      .bind (.expect _) fun _ _ _ => .pure (.some (.giveBack values))
  · exact .pure .none

theorem matching_finds :
    pairing.Finds (Statement.Counterpart known .statement) (matching fuel nested) := by
  refine .bind .position fun _ _ _ => .branch (.accept _) ?_ (.pure .none)
  exact .bind (.expect _) fun _ _ _ => (requiredExpression_reads fuel).bind fun _ _ subjects =>
    ((matchBlock_finds nestedFinds).require _).bind fun _ _ bodies =>
      .pure (.some (.matching subjects bodies))

theorem statementWith_finds :
    pairing.Finds (Statement.Counterpart known .statement) (statementWith fuel nested) := by
  have blockFinds : pairing.Finds (Statement.Counterpart known .statement) (block fuel nested) :=
    .branch (.accept _)
      ((sequence_reads nestedFinds).bind fun _ _ bodies => .bind (.expect _) fun _ _ _ =>
        .pure (.some bodies))
      (.pure .none)
  have expressionFinds : pairing.Finds (Statement.Counterpart known .statement)
      (expressionStatement fuel) :=
    (expression_finds fuel).bindFound (.pure .none) fun _ _ contents =>
      .bind (.expect _) fun _ _ _ => .pure (.some (.expression contents))
  have emptyFinds : pairing.Finds (Statement.Counterpart known .statement) emptyStatement :=
    .bind .position fun _ _ _ => .branch (.accept _) (.pure (.some .empty)) (.pure .none)
  apply Pairing.Reads.firstApplicable
  simp only [List.forall_mem_cons]
  exact ⟨blockFinds, expressionFinds, conditional_finds nestedFinds,
    forLoop_finds nestedFinds, whileLoop_finds nestedFinds, jump_finds,
    matching_finds nestedFinds, emptyFinds, List.forall_mem_nil _⟩

end Statements

theorem statement_finds (fuel : Nat) :
    pairing.Finds (Statement.Counterpart known .statement) (statement fuel) := by
  induction fuel with
  | zero => exact .pure .none
  | succ fuel ih => exact statementWith_finds ih

/-- Token sequences that stand opposite each other are read as corresponding programs, or
reading fails on both in corresponding ways. -/
theorem program_reads (fuel : Nat) :
    pairing.Reads (Statement.Counterpart known .statement) (program fuel) (program fuel) :=
  (sequence_reads (statement_finds fuel)).bind fun _ _ bodies =>
    .bind (.expect _) fun _ _ _ => .pure bodies

end Grammar

end Plainspoken
