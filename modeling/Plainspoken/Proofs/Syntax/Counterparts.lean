import Plainspoken.Grammar.Statement
import Plainspoken.Proofs.Syntax.Unparsing
import Mathlib.Data.List.Forall2

/-!
# Two readings side by side

The grammar decides by the lexemes of tokens and never by their positions.  So where two
sequences of tokens carry the same lexemes, every rule reads corresponding trees from both,
or it fails on both in corresponding ways.

Corresponding trees are built by the same steps from the same lexemes.  The relation names
each of these steps, together with what is known of the lexemes that it uses.  The two
sequences may be one and the same, and then the relation says how the grammar builds trees.
-/

namespace Plainspoken

open List (Forall₂)

/-! ## Corresponding trees -/

/-- Expressions that are built in the same way from lexemes of which something is known. -/
inductive Expression.Counterpart (known : Lexeme → Prop) : Expression → Expression → Prop where
  | literal {place place' : Span} {value : Value} (isKnown : known value.lexeme) :
      Counterpart known (.literal place value) (.literal place' value)
  | identifier {place place' : Span} {name : String} (isKnown : known (.identifier name)) :
      Counterpart known (.identifier place name) (.identifier place' name)
  | unary {place place' : Span} {operator : UnaryOperator} {operand operand' : Expression}
      (operands : Counterpart known operand operand') :
      Counterpart known (.unary place operator operand) (.unary place' operator operand')
  | binary {operator : BinaryOperator} {left left' right right' : Expression}
      (lefts : Counterpart known left left') (rights : Counterpart known right right') :
      Counterpart known (.binary left.span operator left right)
        (.binary left'.span operator left' right')
  | ternary {condition condition' yes yes' : Expression} {no no' : Option Expression}
      (conditions : Counterpart known condition condition') (yeses : Counterpart known yes yes')
      (sameNo : no.isSome = no'.isSome)
      (noes : ∀ part ∈ no, ∀ part' ∈ no', Counterpart known part part') :
      Counterpart known (.ternary condition.span condition yes no)
        (.ternary condition'.span condition' yes' no')
  | pipe {first first' : Expression} {success success' failure failure' : Option Expression}
      (firsts : Counterpart known first first') (sameSuccess : success.isSome = success'.isSome)
      (successes : ∀ part ∈ success, ∀ part' ∈ success', Counterpart known part part')
      (sameFailure : failure.isSome = failure'.isSome)
      (failures : ∀ part ∈ failure, ∀ part' ∈ failure', Counterpart known part part')
      (nonempty : success.isSome = true ∨ failure.isSome = true) :
      Counterpart known (.pipe first.span first success failure)
        (.pipe first'.span first' success' failure')
  | noneTest {place place' : Span} {operand operand' : Expression}
      (operands : Counterpart known operand operand') :
      Counterpart known (.noneTest place operand) (.noneTest place' operand')
  /-- The assignment starts where the next operand of the chain starts, which stands first in
  the value. -/
  | assign {target target' second second' value value' : Expression}
      (targets : Counterpart known target target') (seconds : Counterpart known second second')
      (values : Counterpart known value value') :
      Counterpart known (.assign second.span target value) (.assign second'.span target' value')
  | call {place place' : Span} {name : String} {arguments arguments' : List Expression}
      (isKnown : known (.identifier name)) (sameLength : arguments.length = arguments'.length)
      (each : ∀ argument argument', (argument, argument') ∈ arguments.zip arguments' →
        Counterpart known argument argument') :
      Counterpart known (.call place name arguments) (.call place' name arguments')

/-- Whether a declarator may name the type. -/
def ValueType.isDeclared : ValueType → Bool
  | .number | .text | .fact => true
  | .nothing | .any => false

/-- Declarators that differ in their position only, with a declared type and a known name. -/
structure Declarator.Counterpart (known : Lexeme → Prop) (left right : Declarator) : Prop where
  isMutable : left.isMutable = right.isMutable
  type : left.type = right.type
  name : left.name = right.name
  declared : left.type.isDeclared = true
  isKnown : known (.identifier left.name)

/-- Signatures that differ in positions only.  No two parameters have the same name. -/
structure FunctionSignature.Counterpart (known : Lexeme → Prop)
    (left right : FunctionSignature) : Prop where
  name : left.name = right.name
  overrides : left.overrides = right.overrides
  returns : left.returns = right.returns
  parameters : Forall₂ (Declarator.Counterpart known) left.parameters right.parameters
  isKnown : known (.identifier left.name)
  distinct : (left.parameters.map Declarator.name).Nodup
  returned : left.returns.isDeclared = true ∨ left.returns = .nothing

/-- Signatures that differ in positions only. -/
structure PatternSignature.Counterpart (known : Lexeme → Prop)
    (left right : PatternSignature) : Prop where
  name : left.name = right.name
  overrides : left.overrides = right.overrides
  parameter : left.parameter.Counterpart known right.parameter
  isKnown : known (.identifier left.name)

namespace Statement

/-- What a statement is read as: a statement by itself, a member of a sequence, a branch of a
match, or the block of all its branches. -/
inductive Role where
  | statement
  | member
  | branch
  | block
  deriving DecidableEq

/-- Statements that are built in the same way from lexemes of which something is known. -/
inductive Counterpart (known : Lexeme → Prop) : Role → Statement → Statement → Prop where
  | expression {content content' : Expression} (contents : content.Counterpart known content') :
      Counterpart known .statement (.expression content) (.expression content')
  | compound {place place' : Span} {children children' : List Statement}
      (sameLength : children.length = children'.length)
      (each : ∀ child child', (child, child') ∈ children.zip children' →
        Counterpart known .member child child') :
      Counterpart known .statement (.compound place children) (.compound place' children')
  | conditional {place place' : Span} {condition condition' : Expression}
      {positive positive' : Statement} {negative negative' : Option Statement}
      (conditions : condition.Counterpart known condition')
      (positives : Counterpart known .statement positive positive')
      (sameNegative : negative.isSome = negative'.isSome)
      (negatives : ∀ other ∈ negative, ∀ other' ∈ negative',
        Counterpart known .statement other other') :
      Counterpart known .statement (.conditional place condition positive negative)
        (.conditional place' condition' positive' negative')
  | loop {place place' : Span} {condition condition' : Expression} {body body' : Statement}
      (conditions : condition.Counterpart known condition')
      (bodies : Counterpart known .statement body body') :
      Counterpart known .statement (.loop place condition body) (.loop place' condition' body')
  | skip {place place' : Span} : Counterpart known .statement (.skip place) (.skip place')
  | stop {place place' : Span} : Counterpart known .statement (.stop place) (.stop place')
  | giveBack {place place' : Span} {value value' : Option Expression}
      (values : Option.Rel (Expression.Counterpart known) value value') :
      Counterpart known .statement (.giveBack place value) (.giveBack place' value')
  | matching {place place' : Span} {subject subject' : Expression} {body body' : Statement}
      (subjects : subject.Counterpart known subject')
      (bodies : Counterpart known .block body body') :
      Counterpart known .statement (.matching place subject body)
        (.matching place' subject' body')
  | empty {place place' : Span} : Counterpart known .statement (.empty place) (.empty place')
  | member {statement statement' : Statement}
      (statements : Counterpart known .statement statement statement') :
      Counterpart known .member statement statement'
  | binding {declarator declarator' : Declarator} {initial initial' : Option Expression}
      (declarators : declarator.Counterpart known declarator')
      (initials : Option.Rel (Expression.Counterpart known) initial initial') :
      Counterpart known .member (.variable declarator initial) (.variable declarator' initial')
  | function {signature signature' : FunctionSignature} {body body' : Statement}
      (signatures : signature.Counterpart known signature')
      (bodies : Counterpart known .statement body body') :
      Counterpart known .member (.function signature body) (.function signature' body')
  | pattern {signature signature' : PatternSignature} {body body' : Statement}
      (signatures : signature.Counterpart known signature')
      (bodies : Counterpart known .block body body') :
      Counterpart known .member (.pattern signature body) (.pattern signature' body')
  | forwardPattern {signature signature' : PatternSignature} {place place' : Span}
      (signatures : signature.Counterpart known signature') :
      Counterpart known .member (.pattern signature (.empty place))
        (.pattern signature' (.empty place'))
  | branch {place place' : Span} {condition condition' : Expression} {chosen chosen' : Statement}
      (conditions : condition.Counterpart known condition')
      (chosens : Counterpart known .statement chosen chosen') :
      Counterpart known .branch (.conditional place condition chosen none)
        (.conditional place' condition' chosen' none)
  | block {place place' defaultPlace defaultPlace' : Span} {branches branches' : List Statement}
      {chosen chosen' : Statement} (sameLength : branches.length = branches'.length)
      (each : ∀ branch branch', (branch, branch') ∈ branches.zip branches' →
        Counterpart known .branch branch branch')
      (chosens : Counterpart known .statement chosen chosen') :
      Counterpart known .block
        (.compound place (branches ++
          [.conditional defaultPlace (.literal defaultPlace (.fact true)) chosen none]))
        (.compound place' (branches' ++
          [.conditional defaultPlace' (.literal defaultPlace' (.fact true)) chosen' none]))

end Statement

/-! ## Positions apart -/

theorem optionRel_iff {α β : Type} {related : α → β → Prop} {left : Option α} {right : Option β} :
    Option.Rel related left right ↔
      left.isSome = right.isSome ∧ ∀ part ∈ left, ∀ part' ∈ right, related part part' := by
  constructor
  · rintro (isRelated | _)
    · refine ⟨rfl, ?_⟩
      rintro _ ⟨⟩ _ ⟨⟩
      exact isRelated
    · exact ⟨rfl, nofun⟩
  · rintro ⟨same, each⟩
    cases left with
    | none =>
        cases right with
        | none => exact .none
        | some part' => cases same
    | some part =>
        cases right with
        | none => cases same
        | some part' => exact .some (each part rfl part' rfl)

private theorem optionMap_eq_of_parts {α : Type} {view : α → α} {left right : Option α}
    (same : left.isSome = right.isSome)
    (each : ∀ part ∈ left, ∀ part' ∈ right, view part = view part') :
    left.map view = right.map view := by
  cases optionRel_iff.mpr ⟨same, each⟩ with
  | none => rfl
  | some isSame => exact congrArg some isSame

private theorem map_eq_of_zip {α : Type} {view : α → α} {left right : List α}
    (same : left.length = right.length)
    (each : ∀ part part', (part, part') ∈ left.zip right → view part = view part') :
    left.map view = right.map view := by
  have paired : Forall₂ (fun part part' => view part = view part') left right :=
    List.forall₂_iff_zip.mpr ⟨same, fun {part part'} => each part part'⟩
  induction paired with
  | nil => rfl
  | cons isSame _ ih =>
      simp only [List.map_cons, isSame]
      exact congrArg _ (ih (by simpa using same) fun part part' member =>
        each part part' (List.mem_cons_of_mem _ member))

variable {known : Lexeme → Prop}

/-- Corresponding expressions are the same, positions apart. -/
theorem Expression.Counterpart.unplaced_eq {left right : Expression}
    (counterpart : left.Counterpart known right) : left.unplaced = right.unplaced := by
  induction counterpart with
  | literal | identifier => simp only [Expression.unplaced]
  | unary _ ih | noneTest _ ih => simp only [Expression.unplaced, ih]
  | binary _ _ leftIH rightIH => simp only [Expression.unplaced, leftIH, rightIH]
  | ternary _ _ sameNo _ conditionIH yesIH noIH =>
      simp only [Expression.unplaced, Expression.unplacedPart_eq, conditionIH, yesIH,
        optionMap_eq_of_parts sameNo noIH]
  | pipe _ sameSuccess _ sameFailure _ _ firstIH successIH failureIH =>
      simp only [Expression.unplaced, Expression.unplacedPart_eq, firstIH,
        optionMap_eq_of_parts sameSuccess successIH, optionMap_eq_of_parts sameFailure failureIH]
  | assign _ _ _ targetIH _ valueIH => simp only [Expression.unplaced, targetIH, valueIH]
  | call _ sameLength _ ih =>
      simp only [Expression.unplaced, Expression.unplacedAll_eq, map_eq_of_zip sameLength ih]

private theorem Expression.Counterpart.optional_unplaced_eq {left right : Option Expression}
    (counterparts : Option.Rel (Expression.Counterpart known) left right) :
    left.map Expression.unplaced = right.map Expression.unplaced := by
  cases counterparts with
  | none => rfl
  | some counterpart => exact congrArg some counterpart.unplaced_eq

theorem Declarator.Counterpart.unplaced_eq {left right : Declarator}
    (counterpart : left.Counterpart known right) : left.unplaced = right.unplaced := by
  simp only [Declarator.unplaced, counterpart.isMutable, counterpart.type, counterpart.name]

private theorem FunctionSignature.Counterpart.unplaced_eq {left right : FunctionSignature}
    (counterpart : left.Counterpart known right) : left.unplaced = right.unplaced := by
  have parameters : left.parameters.map Declarator.unplaced =
      right.parameters.map Declarator.unplaced := by
    rw [← List.forall₂_eq_eq_eq, List.forall₂_map_left_iff, List.forall₂_map_right_iff]
    exact counterpart.parameters.imp fun _ _ => Declarator.Counterpart.unplaced_eq
  simp only [FunctionSignature.unplaced, counterpart.name, counterpart.overrides,
    counterpart.returns, parameters]

private theorem PatternSignature.Counterpart.unplaced_eq {left right : PatternSignature}
    (counterpart : left.Counterpart known right) : left.unplaced = right.unplaced := by
  simp only [PatternSignature.unplaced, counterpart.name, counterpart.overrides,
    counterpart.parameter.unplaced_eq]

/-- Corresponding statements are the same, positions apart. -/
theorem Statement.Counterpart.unplaced_eq {role : Statement.Role} {left right : Statement}
    (counterpart : left.Counterpart known role right) : left.unplaced = right.unplaced := by
  induction counterpart with
  | skip | stop | empty => simp only [unplaced]
  | expression contents => simp only [unplaced, contents.unplaced_eq]
  | compound sameLength _ ih =>
      simp only [unplaced, unplacedAll_eq, map_eq_of_zip sameLength ih]
  | conditional conditions _ sameNegative _ positiveIH negativeIH =>
      simp only [unplaced, unplacedElse_eq, conditions.unplaced_eq, positiveIH,
        optionMap_eq_of_parts sameNegative negativeIH]
  | loop conditions _ ih => simp only [unplaced, conditions.unplaced_eq, ih]
  | giveBack values =>
      simp only [unplaced, Expression.Counterpart.optional_unplaced_eq values]
  | matching subjects _ ih => simp only [unplaced, subjects.unplaced_eq, ih]
  | member _ ih => exact ih
  | binding declarators initials =>
      simp only [unplaced, declarators.unplaced_eq,
        Expression.Counterpart.optional_unplaced_eq initials]
  | function signatures _ ih => simp only [unplaced, signatures.unplaced_eq, ih]
  | pattern signatures _ ih => simp only [unplaced, signatures.unplaced_eq, ih]
  | forwardPattern signatures => simp only [unplaced, signatures.unplaced_eq]
  | branch conditions _ ih =>
      simp only [unplaced, unplacedElse_eq, conditions.unplaced_eq, ih, Option.map_none]
  | block sameLength _ _ ih chosenIH =>
      simp only [unplaced, unplacedAll_eq, unplacedElse_eq, List.map_append, List.map_cons,
        List.map_nil, map_eq_of_zip sameLength ih, chosenIH, Expression.unplaced, Option.map_none]

end Plainspoken
