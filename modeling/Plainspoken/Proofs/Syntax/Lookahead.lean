import Plainspoken.Proofs.Syntax.Derivation

/-!
# The first tokens of forms

A rule of the grammar is chosen by the first token that has not been used.  For
every symbol there is a list of the kinds of tokens that what it derives can
begin with.  That the lists suffice is checked against the rules: what the right
side of a rule can begin with, by the lists of the symbols in it, is in the list
of its left side.
-/

namespace Plainspoken

namespace Syntax

open Form

/-- The kind of the first token; after the last one stands the end of the
source. -/
def nextKind (tokens : List Token) : TokenKind :=
  (tokens.head?.map Token.kind).getD .endOfSource

@[simp]
theorem nextKind_nil : nextKind [] = .endOfSource :=
  rfl

@[simp]
theorem nextKind_cons (token : Token) (tokens : List Token) :
    nextKind (token :: tokens) = token.kind :=
  rfl

theorem nextKind_append {tokens : List Token} (nonempty : tokens ≠ []) (rest : List Token) :
    nextKind (tokens ++ rest) = nextKind tokens := by
  cases tokens with
  | nil => exact absurd rfl nonempty
  | cons token tokens => rfl

def literalStarts : List TokenKind :=
  [.number, .text, .fact, .keyword .noneWord]

def operandStarts : List TokenKind :=
  literalStarts ++ [.identifier, .mark .openParenthesis, .keyword .callWord]

def expressionStarts : List TokenKind :=
  [.mark .minus, .keyword .notWord] ++ operandStarts

def typeStarts : List TokenKind :=
  [.keyword .numberWord, .keyword .textWord, .keyword .factWord]

def declaratorStarts : List TokenKind :=
  .keyword .mutableWord :: typeStarts

def statementStarts : List TokenKind :=
  .keyword .beginWord :: expressionStarts ++
    [.keyword .ifWord, .keyword .forWord, .keyword .whileWord, .keyword .skipWord,
      .keyword .stopWord, .keyword .returnWord, .keyword .matchWord, .mark .semicolon]

def declarationStarts : List TokenKind :=
  declaratorStarts ++ [.keyword .functionWord, .keyword .patternWord]

/-- The kinds of tokens that the tokens of a symbol can begin with. -/
def starts : Nonterminal → List TokenKind
  | .program => declarationStarts ++ statementStarts ++ [.endOfSource]
  | .sequence => declarationStarts ++ statementStarts
  | .compound => [.keyword .beginWord]
  | .statement => statementStarts
  | .expressionStatement => expressionStarts
  | .conditional => [.keyword .ifWord]
  | .forLoop => [.keyword .forWord]
  | .whileLoop => [.keyword .whileWord]
  | .jump => [.keyword .skipWord, .keyword .stopWord, .keyword .returnWord]
  | .matching => [.keyword .matchWord]
  | .empty => [.mark .semicolon]
  | .matchBlock => [.keyword .beginWord]
  | .matchBranch => expressionStarts
  | .declaration => declarationStarts
  | .variableDeclaration => declaratorStarts
  | .function => [.keyword .functionWord]
  | .pattern => [.keyword .patternWord]
  | .declarator => declaratorStarts
  | .type => typeStarts
  | .returnType => typeStarts ++ [.keyword .nothingWord]
  | .expression | .assignment | .pipe | .ternary | .disjunction | .conjunction | .equality
  | .relation | .addition | .multiplication | .unary => expressionStarts
  | .noneTest => operandStarts
  | .call => [.keyword .callWord]
  | .literal => literalStarts

/-- Whether a form may derive no tokens at all.  Of the symbols only a sequence
does. -/
def nullable : Form → Bool
  | .token _ => false
  | .symbol nonterminal => nonterminal == .sequence
  | .nothing => true
  | .both first second => nullable first && nullable second
  | .never => false
  | .either first second => nullable first || nullable second
  | .repeated _ => true
  | .checked _ form => nullable form

/-- The kinds of tokens that a form can begin with. -/
def firsts : Form → List TokenKind
  | .token kind => [kind]
  | .symbol nonterminal => starts nonterminal
  | .nothing => []
  | .both first second => firsts first ++ if nullable first then firsts second else []
  | .never => []
  | .either first second => firsts first ++ firsts second
  | .repeated form => firsts form
  | .checked _ form => firsts form

theorem firsts_oneOf_tokens (kinds : List TokenKind) :
    firsts (oneOf (kinds.map .token)) = kinds := by
  induction kinds with
  | nil => rfl
  | cons kind kinds ih =>
      change [kind] ++ firsts (oneOf (kinds.map .token)) = kind :: kinds
      rw [ih]
      rfl

theorem nullable_oneOf_tokens (kinds : List TokenKind) :
    nullable (oneOf (kinds.map .token)) = false := by
  induction kinds with
  | nil => rfl
  | cons kind kinds ih => exact ih

/-- The lists of first tokens agree with the rules. -/
theorem firsts_rule_subset (nonterminal : Nonterminal) :
    firsts (rule nonterminal) ⊆ starts nonterminal := by
  cases nonterminal <;> decide

theorem nullable_rule (nonterminal : Nonterminal) :
    nullable (rule nonterminal) = (nonterminal == .sequence) := by
  cases nonterminal <;> rfl

theorem Derives.nullable {form : Form} {tokens : List Token} (derived : Derives form tokens)
    (isEmpty : tokens = []) : nullable form = true := by
  induction derived with
  | token same => cases isEmpty
  | @symbol nonterminal tokens body ih =>
      have inRule := ih isEmpty
      rw [nullable_rule] at inRule
      exact inRule
  | nothing => rfl
  | both left right leftIH rightIH =>
      obtain ⟨leftEmpty, rightEmpty⟩ := List.append_eq_nil_iff.mp isEmpty
      simp [Syntax.nullable, leftIH leftEmpty, rightIH rightEmpty]
  | left derived ih => simp [Syntax.nullable, ih isEmpty]
  | right derived ih => simp [Syntax.nullable, ih isEmpty]
  | done => rfl
  | again once rest onceIH restIH => rfl
  | checked body passed ih => exact ih isEmpty

/-- What a form derives is empty or begins with one of its first tokens. -/
theorem Derives.nextKind_mem {form : Form} {tokens : List Token} (derived : Derives form tokens)
    (nonempty : tokens ≠ []) : nextKind tokens ∈ firsts form := by
  induction derived with
  | token same =>
      rw [nextKind_cons, same]
      exact List.mem_singleton_self _
  | symbol body ih => exact firsts_rule_subset _ (ih nonempty)
  | nothing => exact absurd rfl nonempty
  | @both first second before after left right leftIH rightIH =>
      by_cases leftEmpty : before = []
      · have skipped := left.nullable leftEmpty
        subst leftEmpty
        simp only [firsts, skipped, if_true, List.mem_append]
        exact .inr (rightIH nonempty)
      · rw [nextKind_append leftEmpty]
        exact List.mem_append_left _ (leftIH leftEmpty)
  | left derived ih => exact List.mem_append_left _ (ih nonempty)
  | right derived ih => exact List.mem_append_right _ (ih nonempty)
  | done => exact absurd rfl nonempty
  | @again form before after once rest onceIH restIH =>
      by_cases onceEmpty : before = []
      · subst onceEmpty
        exact restIH nonempty
      · rw [nextKind_append onceEmpty]
        exact onceIH onceEmpty
  | checked body passed ih => exact ih nonempty

theorem Derives.nonempty {form : Form} {tokens : List Token} (derived : Derives form tokens)
    (solid : Syntax.nullable form = false) : tokens ≠ [] := by
  intro isEmpty
  rw [derived.nullable isEmpty] at solid
  cases solid

end Syntax

end Plainspoken
