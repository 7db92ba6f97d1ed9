import Plainspoken.Proofs.Syntax.RestoringExpressions
import Plainspoken.Proofs.Syntax.Statements

/-!
# Restoring statements

The rules for statements and declarations restore what is written for them.  A
statement that ends with a conditional without `ELSE` is open: it would take an
`ELSE` behind it for its own.  So the first branch of a conditional with `ELSE`
has to be closed, and since no block can be put around it without changing the
tree, this is asked of the trees that can be written.
-/

namespace Plainspoken

open List (Forall₂)

/-! ## Trees that can be written -/

/-- The type of the declarator can be named in it. -/
def Declarator.Readable (declarator : Declarator) : Prop :=
  Grammar.valueType? declarator.type.lexeme = some declarator.type

structure FunctionSignature.Readable (signature : FunctionSignature) : Prop where
  parametersReadable : ∀ parameter ∈ signature.parameters, parameter.Readable
  namesDistinct : (signature.parameters.map Declarator.name).Nodup
  returnsNamed : signature.returns ≠ .any

namespace Statement

mutual

/-- Whether a statement would take an `ELSE` behind it for its own. -/
def isOpen : Statement → Bool
  | .conditional _ _ _ negative => isOpenElse negative
  | .loop _ _ body => body.isOpen
  | _ => false

def isOpenElse : Option Statement → Bool
  | none => true
  | some negative => negative.isOpen

end

mutual

/-- Statements that can be written so that they are read again. -/
inductive Readable : Statement → Prop where
  | expression {content : Expression} (contentReadable : content.Readable) :
      Readable (.expression content)
  | compound {span : Span} {children : List Statement}
      (childrenReadable : ∀ child ∈ children, ReadableChild child) :
      Readable (.compound span children)
  | conditional {span : Span} {condition : Expression} {positive : Statement}
      {negative : Option Statement} (conditionReadable : condition.Readable)
      (positiveReadable : Readable positive)
      (positiveClosed : negative.isSome = true → positive.isOpen = false)
      (negativeReadable : ∀ other ∈ negative, Readable other) :
      Readable (.conditional span condition positive negative)
  | loop {span : Span} {condition : Expression} {body : Statement}
      (conditionReadable : condition.Readable) (bodyReadable : Readable body) :
      Readable (.loop span condition body)
  | skip {span : Span} : Readable (.skip span)
  | stop {span : Span} : Readable (.stop span)
  | giveBack {span : Span} {value : Option Expression}
      (valueReadable : ∀ part ∈ value, part.Readable) : Readable (.giveBack span value)
  | matching {span : Span} {subject : Expression} {body : Statement}
      (subjectReadable : subject.Readable) (bodyReadable : ReadableBlock body) :
      Readable (.matching span subject body)
  | empty {span : Span} : Readable (.empty span)

/-- Statements and declarations that can be written in a sequence. -/
inductive ReadableChild : Statement → Prop where
  | statement {statement : Statement} (readable : Readable statement) : ReadableChild statement
  | binding {declarator : Declarator} {initial : Option Expression}
      (declaratorReadable : declarator.Readable)
      (initialReadable : ∀ part ∈ initial, part.Readable) :
      ReadableChild (.variable declarator initial)
  | function {signature : FunctionSignature} {body : Statement}
      (signatureReadable : signature.Readable) (bodyReadable : Readable body) :
      ReadableChild (.function signature body)
  | pattern {signature : PatternSignature} {body : Statement}
      (parameterReadable : signature.parameter.Readable)
      (bodyReadable : body.isEmpty = false → ReadableBlock body) :
      ReadableChild (.pattern signature body)

/-- Blocks of branches, the last of which is the default. -/
inductive ReadableBlock : Statement → Prop where
  | block {span place place' : Span} {branches : List Statement} {chosen : Statement}
      (branchesReadable : ∀ branch ∈ branches, ReadableBranch branch)
      (chosenReadable : Readable chosen) :
      ReadableBlock (.compound span
        (branches ++ [.conditional place (.literal place' (.fact true)) chosen none]))

inductive ReadableBranch : Statement → Prop where
  | branch {span : Span} {condition : Expression} {chosen : Statement}
      (conditionReadable : condition.Readable) (chosenReadable : Readable chosen) :
      ReadableBranch (.conditional span condition chosen none)

end

/-- The result is what was written, up to positions. -/
def Restored (written result : Statement) : Prop :=
  result.unplaced = written.unplaced

end Statement

def Declarator.Restored (written result : Declarator) : Prop :=
  result.unplaced = written.unplaced

private theorem Declarator.Restored.name_eq {written result : Declarator}
    (same : written.Restored result) : result.name = written.name := by
  have unplaced : result.unplaced = written.unplaced := same
  have unplacedName := congrArg Declarator.name unplaced
  exact unplacedName

namespace Syntax

open Rule

variable {span : Span} {bound fuel : Nat}

/-! ## Declarators -/

section Declarators

variable {α : Type} {good : α → Prop} {lexeme : Lexeme} {lexemes : List Lexeme}
  {stop : List TokenKind}

/-- A word that is written if a flag is set. -/
theorem Restores.flag {kind : TokenKind} {next : Bool → Rule α} (flag : Bool)
    (same : lexeme.kind = kind) (restores : Restores span bound good (next flag) lexemes stop)
    (parted : Parted [kind] lexemes stop) :
    Restores span bound good (Rule.accept kind >>= next)
      ((if flag then [lexeme] else []) ++ lexemes) stop := by
  cases flag with
  | true => exact .acceptWithin same restores
  | false => exact .pass restores parted

theorem valueType_restores {type : ValueType}
    (named : Grammar.valueType? type.lexeme = some type) :
    Restores span bound (Found (· = type)) Grammar.valueType [type.lexeme] [] where
  restore {used rest} written _ _ := by
    obtain ⟨token, after, rfl, isType, afterWritten⟩ := List.map_eq_cons_iff.mp written
    cases List.map_eq_nil_iff.mp afterWritten
    refine ⟨some type, ⟨type, rfl, rfl⟩, ?_⟩
    unfold Grammar.valueType
    rw [bind_of_ok (current_eq _)]
    simp only [List.cons_append, List.headD_cons, isType, named]
    rfl

theorem kind_type_mem {type : ValueType} (named : Grammar.valueType? type.lexeme = some type) :
    type.lexeme.kind ∈ typeStarts := by
  rw [← valueType?_isSome, named]
  rfl

theorem returnType_restores {type : ValueType} (named : type ≠ .any) :
    Restores span bound (· = type) Grammar.returnType [type.lexeme] [] := by
  have words : ∀ kind ∈ typeStarts, kind ∉ [TokenKind.keyword .nothingWord] := by decide
  cases type with
  | nothing => exact .acceptWithin rfl (.pure rfl)
  | any => exact absurd rfl named
  | number | text | fact =>
      exact .pass (.require (valueType_restores rfl)) (words _ (kind_type_mem rfl))

theorem declarator_restores {declarator : Declarator} (readable : declarator.Readable) :
    Restores span bound (Found declarator.Restored) Grammar.declarator declarator.write [] := by
  have words : ∀ kind ∈ typeStarts, kind ∉ [TokenKind.keyword .mutableWord] := by decide
  obtain ⟨place, isMutable, type, name⟩ := declarator
  refine .position fun place' => .flag isMutable rfl ?_ (words _ (kind_type_mem readable))
  refine .bindFound (valueType_restores readable) .nil fun _ same =>
    .map .identifier fun _ same' => ⟨_, rfl, ?_⟩
  subst same same'
  rfl

theorem begins_declarator {declarator : Declarator} (readable : declarator.Readable) :
    Begins declaratorStarts declarator.write := by
  obtain ⟨place, isMutable, type, name⟩ := declarator
  cases isMutable with
  | true => exact ⟨_, _, rfl, List.mem_cons_self⟩
  | false => exact ⟨_, _, rfl, List.mem_cons_of_mem _ (kind_type_mem readable)⟩

end Declarators

/-! ## Parameters -/

theorem parametersFrom_restores {function : String} {known : List Declarator}
    {first : Declarator} {others : List Declarator}
    (readable : ∀ parameter ∈ first :: others, parameter.Readable)
    (distinct : (known.map Declarator.name ++ (first :: others).map Declarator.name).Nodup) :
    Restores span fuel
      (fun result => ∃ values, result = known ++ values ∧
        Forall₂ Declarator.Restored (first :: others) values)
      (Grammar.parametersFrom function fuel known)
      (first.write ++ others.flatMap (fun parameter => .mark .comma :: parameter.write))
      [.mark .comma] := by
  -- The names that are known grow by one in every round and remain distinct.
  induction fuel generalizing known first others with
  | zero => exact ⟨fun _ _ short => absurd short (Nat.not_lt_zero _)⟩
  | succ fuel ih =>
      have firstRestores := @declarator_restores span (fuel + 1) first (readable first (by simp))
      refine .bind (.require firstRestores) .nil fun value same => ?_
      have sameName := same.name_eq
      have fresh : ¬ known.any (·.name == value.name) = true := by
        intro repeated
        obtain ⟨other, isKnown, isSame⟩ := List.any_eq_true.mp repeated
        have different := (List.nodup_append.mp distinct).2.2
        refine different _ (List.mem_map_of_mem isKnown) _ List.mem_cons_self ?_
        exact (eq_of_beq isSame).trans sameName
      rw [if_neg fresh]
      cases others with
      | nil => exact .pass (.pure ⟨[value], rfl, .cons same .nil⟩) .last
      | cons next others =>
          have distinct' : ((known ++ [value]).map Declarator.name ++
              (next :: others).map Declarator.name).Nodup := by
            simpa [sameName] using distinct
          rw [List.flatMap_cons, List.cons_append]
          refine .accept rfl (.mono (ih (fun parameter member =>
            readable parameter (List.mem_cons_of_mem first member)) distinct') ?_)
          rintro _ ⟨values, rfl, areSame⟩
          exact ⟨value :: values, by simp, .cons same areSame⟩

theorem parameters_restores {function : String} {parameters : List Declarator}
    (readable : ∀ parameter ∈ parameters, parameter.Readable)
    (distinct : (parameters.map Declarator.name).Nodup) (enough : bound ≤ fuel) :
    Restores span bound (Forall₂ Declarator.Restored parameters) (Grammar.parameters fuel function)
      (Lexeme.listed (.keyword .withWord) (parameters.map Declarator.write))
      [.mark .comma, .keyword .withWord] := by
  cases parameters with
  | nil => exact .pass (.pure .nil) (by decide)
  | cons first others =>
      have restores := (@parametersFrom_restores span fuel function [] first others readable
        distinct).weaken enough
          (by decide : [TokenKind.mark .comma] ⊆ [.mark .comma, .keyword .withWord])
      rw [List.map_cons, Lexeme.listed, List.flatMap_map, List.cons_append]
      refine .acceptWithin rfl (restores.mono ?_)
      rintro _ ⟨values, rfl, areSame⟩
      exact areSame

/-! ## Declarations -/

theorem requiredExpression_restores {expression : Expression} (readable : expression.Readable)
    (enough : bound ≤ fuel) :
    Restores span bound expression.Restored (Grammar.requiredExpression fuel) expression.write
      expressionStop :=
  .require ((expression_restores span fuel expression readable).weaken enough
    (List.Subset.refl _))

theorem variableDeclaration_restores {declarator : Declarator} {initial : Option Expression}
    (declaratorReadable : declarator.Readable)
    (initialReadable : ∀ part ∈ initial, part.Readable) (enough : bound ≤ fuel) :
    Restores span bound (Found (Statement.variable declarator initial).Restored)
      (Grammar.variableDeclaration fuel)
      (declarator.write ++ Lexeme.led (.keyword .isWord) (initial.map Expression.write))
      expressionStop := by
  refine .bindFound (declarator_restores declaratorReadable) .nil fun declarator' same => ?_
  cases initial with
  | none =>
      refine .pass (.pure ⟨_, rfl, ?_⟩) (by decide)
      exact congrArg (Statement.variable · none) same
  | some initial =>
      refine .acceptWithin rfl (.map (requiredExpression_restores (initialReadable initial rfl)
        enough) fun initial' same' => ⟨_, rfl, ?_⟩)
      exact congrArg₂ (fun declarator initial => Statement.variable declarator (some initial)) same
        same'

theorem variableStatement_restores {declarator : Declarator} {initial : Option Expression}
    (declaratorReadable : declarator.Readable)
    (initialReadable : ∀ part ∈ initial, part.Readable) (enough : bound ≤ fuel) :
    Restores span bound (Found (Statement.variable declarator initial).Restored)
      (Grammar.variableStatement fuel) (Statement.variable declarator initial).write [] :=
  .bindFound (variableDeclaration_restores declaratorReadable initialReadable enough) (by decide)
    fun declaration same => .map (.expect rfl) fun _ _ => ⟨declaration, rfl, same⟩

/-! ## Rules of several kinds -/

/-- The rule does not apply where the form cannot begin. -/
def Declines {α : Type} (span : Span) (rule : Rule (Option α)) (form : Form) : Prop :=
  ∀ ⦃tokens : List Token⦄, nextKind tokens ∉ firsts form →
    rule (.endOfSource span) tokens = .ok (none, tokens)

theorem Recognizes.toDeclines {α : Type} {rule : Rule (Option α)} {form : Form}
    {stop : List TokenKind} (recognizes : Recognizes span bound rule form stop) :
    Declines span rule form :=
  fun _ other => recognizes.declines other

theorem Declines.restores {α : Type} {rule : Rule (Option α)} {form : Form}
    (declines : Declines span rule form) :
    Restores span bound (· = none) rule [] (firsts form) where
  restore {used rest} written stops _ := by
    cases List.map_eq_nil_iff.mp written
    exact ⟨none, rfl, declines stops⟩

/-- The first lexeme selects one of several rules. -/
theorem Restores.select {α : Type} {good : α → Prop} {rules : List (Rule (Option α))}
    {forms : List Form} (declines : Forall₂ (Declines span) rules forms) (index : Nat)
    {rule : Rule (Option α)} (selected : rules[index]? = some rule) {lexemes : List Lexeme}
    {stop kinds : List TokenKind} (restores : Restores span bound (Found good) rule lexemes stop)
    (begins : Begins kinds lexemes)
    (apart : ∀ form ∈ forms.take index, ∀ kind ∈ kinds, kind ∉ firsts form) :
    Restores span bound (Found good) (firstApplicable rules) lexemes stop := by
  induction declines generalizing index with
  | nil => cases selected
  | cons declines others ih =>
      cases index with
      | zero =>
          cases selected
          exact .first restores
      | succ index =>
          have laterApart (form : Form) (member : form ∈ _) :=
            apart form (List.mem_cons_of_mem _ member)
          exact .later (ih index selected laterApart) (fun other => declines other) begins
            (apart _ List.mem_cons_self)

/-! ## Declarations that contain statements -/

/-- The token that a statement does not stop at. -/
def statementStop (statement : Statement) : List TokenKind :=
  if statement.isOpen then [.keyword .elseWord] else []

theorem statementStop_subset (statement : Statement) :
    statementStop statement ⊆ [.keyword .elseWord] := by
  unfold statementStop
  split <;> decide

section Nested

variable {nested : Grammar.StatementRule}
  (alternative : Alternative span bound nested (.symbol .statement))
  (restores : ∀ statement : Statement, statement.Readable →
    Restores span bound (Found statement.Restored) nested statement.write
      (statementStop statement))
  (enough : bound ≤ fuel)

include restores in
theorem requiredStatement_restores {statement : Statement} (readable : statement.Readable) :
    Restores span bound statement.Restored (Grammar.requiredStatement nested) statement.write
      [.keyword .elseWord] :=
  .require ((restores statement readable).weaken (Nat.le_refl bound)
    (statementStop_subset statement))

include restores enough in
theorem functionDeclaration_restores {signature : FunctionSignature} {body : Statement}
    (signatureReadable : signature.Readable) (bodyReadable : body.Readable) :
    Restores span (bound + 1) (Found (Statement.function signature body).Restored)
      (Grammar.functionDeclaration fuel nested) (Statement.function signature body).write
      [.keyword .elseWord] := by
  obtain ⟨place, name, overrides, parameters, returns⟩ := signature
  obtain ⟨parametersReadable, namesDistinct, returnsNamed⟩ := signatureReadable
  have written : (Statement.function ⟨place, name, overrides, parameters, returns⟩ body).write =
      .keyword .functionWord :: ((if overrides then [.keyword .overrideWord] else []) ++
        ([.identifier name] ++
          (Lexeme.listed (.keyword .withWord) (parameters.map Declarator.write) ++
            ([.keyword .returnsWord] ++ ([returns.lexeme] ++ body.write))))) := by
    simp [Statement.write, FunctionSignature.write, writeName]
  rw [written]
  have notOverride : TokenKind.identifier ∉ [TokenKind.keyword .overrideWord] := by decide
  refine .position fun place' => .accept rfl (.flag overrides rfl ?_ (.cons notOverride))
  refine .bind .identifier .nil fun _ sameName => ?_
  refine .bind (parameters_restores parametersReadable namesDistinct enough) (.cons (by decide))
    fun parameters' sameParameters => ?_
  refine .bind (.expect rfl) .nil fun _ _ => ?_
  refine .bind (returnType_restores returnsNamed) .nil fun _ sameReturns => ?_
  refine .map (requiredStatement_restores restores bodyReadable) fun body' sameBody => ⟨_, rfl, ?_⟩
  subst sameName sameReturns
  have unplacedParameters : parameters'.map Declarator.unplaced =
      parameters.map Declarator.unplaced := map_eq_of_forall₂ sameParameters
  have unplacedBody : body'.unplaced = body.unplaced := sameBody
  simp [Statement.Restored, Statement.unplaced, FunctionSignature.unplaced, unplacedParameters,
    unplacedBody]

theorem begins_branch {branch : Statement} (readable : branch.ReadableBranch) :
    Begins expressionStarts branch.writeBranch := by
  cases readable with
  | branch conditionReadable chosenReadable =>
      rw [Statement.writeBranch]
      exact ((begins_write _).append _).append _

include restores enough in
theorem matchBranch_restores {branch : Statement} (readable : branch.ReadableBranch) :
    Restores span bound (Found branch.Restored) (Grammar.matchBranch fuel nested)
      branch.writeBranch [] := by
  cases readable with
  | @branch place condition chosen conditionReadable chosenReadable =>
      have written : (Statement.conditional place condition chosen none).writeBranch =
          condition.write ++ ([.keyword .doWord] ++ (chosen.write ++ [.mark .comma])) := by
        simp [Statement.writeBranch]
      have conditionRestores :=
        (expression_restores span fuel condition conditionReadable).weaken enough
          (List.Subset.refl _)
      rw [written]
      refine .position fun place' => .bindFound conditionRestores (.cons (by decide))
        fun condition' sameCondition => ?_
      refine .bind (.expect rfl) .nil fun _ _ => ?_
      refine .bind (requiredStatement_restores restores chosenReadable) (by decide)
        fun chosen' sameChosen => .map (.expect rfl) fun _ _ => ⟨_, rfl, ?_⟩
      exact congrArg₂ (Statement.conditional .beforeSource · · none) sameCondition sameChosen

include alternative restores enough in
theorem matchBlock_restores {block : Statement} (readable : block.ReadableBlock) :
    Restores span (bound + 1) (Found block.Restored) (Grammar.matchBlock fuel nested)
      block.writeBlock [] := by
  cases readable with
  | @block place defaultPlace literalPlace branches chosen branchesReadable chosenReadable =>
      have written : (Statement.compound place (branches ++ [.conditional defaultPlace
          (.literal literalPlace (.fact true)) chosen none])).writeBlock =
          .keyword .beginWord :: (branches.flatMap Statement.writeBranch ++
            ([.keyword .defaultWord] ++ (chosen.write ++ ([.mark .comma] ++
              [.keyword .endWord])))) := by
        simp [Statement.writeBlock, Statement.writeBranches_concat, Statement.writeDefault]
      have each : RestoresEach span bound (Grammar.matchBranch fuel nested) Statement.writeBranch
          Statement.Restored expressionStarts branches :=
        .of_begins (fun branch member =>
            matchBranch_restores restores enough (branchesReadable branch member))
          (fun branch member => begins_branch (branchesReadable branch member))
          (fun _ _ => List.not_mem_nil) (List.nil_subset _)
      have ended {rest : List Token} (stops : nextKind rest ∉ expressionStarts) :=
        (matchBranch_recognizes alternative.toRecognizes enough).declines stops
      rw [written]
      refine .accept rfl (.position fun place' => ?_)
      refine .bind (.many each ended enough) (.cons (by decide)) fun branches' sameBranches => ?_
      refine .bind (.expect rfl) .nil fun _ _ => .position fun defaultPlace' => ?_
      refine .bind (requiredStatement_restores restores chosenReadable) (by decide)
        fun chosen' sameChosen => ?_
      refine .bind (.expect rfl) .nil fun _ _ => .map (.expect rfl) fun _ _ => ⟨_, rfl, ?_⟩
      have unplacedBranches : branches'.map Statement.unplaced = branches.map Statement.unplaced :=
        map_eq_of_forall₂ sameBranches
      have unplacedChosen : chosen'.unplaced = chosen.unplaced := sameChosen
      simp [Statement.Restored, Statement.unplaced, Expression.unplaced, unplacedBranches,
        unplacedChosen]

private theorem eq_empty_of_isEmpty {statement : Statement} (isEmpty : statement.isEmpty = true) :
    ∃ place, statement = .empty place := by
  cases statement with
  | empty place => exact ⟨place, rfl⟩
  | _ => cases isEmpty

include alternative restores enough in
theorem patternDeclaration_restores {signature : PatternSignature} {body : Statement}
    (parameterReadable : signature.parameter.Readable)
    (bodyReadable : body.isEmpty = false → body.ReadableBlock) :
    Restores span (bound + 1) (Found (Statement.pattern signature body).Restored)
      (Grammar.patternDeclaration fuel nested) (Statement.pattern signature body).write [] := by
  obtain ⟨place, name, overrides, parameter⟩ := signature
  have written : (Statement.pattern ⟨place, name, overrides, parameter⟩ body).write =
      .keyword .patternWord :: ((if overrides then [.keyword .overrideWord] else []) ++
        ([.identifier name] ++ ([.keyword .withWord] ++
          (parameter.write ++ body.writeBlock)))) := by
    simp [Statement.write, PatternSignature.write, writeName]
  rw [written]
  have notOverride : TokenKind.identifier ∉ [TokenKind.keyword .overrideWord] := by decide
  refine .position fun place' => .accept rfl (.flag overrides rfl ?_ (.cons notOverride))
  refine .bind .identifier .nil fun _ sameName => .bind (.expect rfl) .nil fun _ _ => ?_
  refine .bind (.require (declarator_restores parameterReadable)) .nil
    fun parameter' sameParameter => ?_
  subst sameName
  have unplacedParameter : parameter'.unplaced = parameter.unplaced := sameParameter
  cases isForward : body.isEmpty with
  | false =>
    have block := matchBlock_restores alternative restores enough (bodyReadable isForward)
    refine .bindFoundLast (block.weaken (Nat.le_succ bound) (List.Subset.refl []))
      (List.Subset.refl []) fun body' sameBody => .pure ⟨_, rfl, ?_⟩
    have unplacedBody : body'.unplaced = body.unplaced := sameBody
    simp [Statement.Restored, Statement.unplaced, PatternSignature.unplaced, unplacedParameter,
      unplacedBody]
  | true =>
    obtain ⟨endPlace, rfl⟩ := eq_empty_of_isEmpty isForward
    have noBlock : Restores span bound (· = none) (Grammar.matchBlock fuel nested) []
        [.keyword .beginWord] := .pass (.pure rfl) .last
    change Restores span bound _ _ ([] ++ [.mark .semicolon]) []
    refine .bind noBlock (.cons (by decide)) fun _ missing => ?_
    subst missing
    refine .position fun endPlace' => .map (.expect rfl) fun _ _ => ⟨_, rfl, ?_⟩
    simp [Statement.Restored, Statement.unplaced, PatternSignature.unplaced, unplacedParameter]

include alternative enough in
theorem declarations_decline :
    Forall₂ (Declines span)
      [Grammar.variableStatement fuel, Grammar.functionDeclaration fuel nested,
        Grammar.patternDeclaration fuel nested]
      [.inOrder [.symbol .variableDeclaration, .mark .semicolon], .symbol .function,
        .symbol .pattern] :=
  .cons (variableStatement_recognizes enough).toDeclines
    (.cons (functionDeclaration_recognizes alternative.toRecognizes enough).toDeclines
      (.cons (patternDeclaration_recognizes alternative.toRecognizes enough).toDeclines .nil))

/-! ## Sequences -/

theorem begins_statement {statement : Statement} (readable : statement.Readable) :
    Begins (starts .statement) statement.write := by
  cases readable with
  | expression contentReadable =>
      rw [Statement.write]
      exact ((begins_write _).mono (by decide)).append _
  | _ =>
      rw [Statement.write]
      exact ⟨_, _, rfl, by decide⟩

theorem begins_child {child : Statement} (readable : child.ReadableChild) :
    Begins (starts .sequence) child.write := by
  cases readable with
  | statement readable => exact (begins_statement readable).mono (by decide)
  | binding declaratorReadable initialReadable =>
      rw [Statement.write]
      exact (((begins_declarator declaratorReadable).mono (by decide)).append _).append _
  | function | pattern =>
      rw [Statement.write]
      exact ⟨_, _, rfl, by decide⟩

include alternative restores enough in
theorem child_restores {child : Statement} (readable : child.ReadableChild) :
    Restores span bound (Found child.Restored)
      (firstApplicable [Grammar.declaration fuel nested, nested]) child.write
      [.keyword .elseWord] := by
  have declarations := declarations_decline alternative enough
  have children : Forall₂ (Declines span) [Grammar.declaration fuel nested, nested]
      [.symbol .declaration, .symbol .statement] :=
    .cons (declaration_recognizes alternative.toRecognizes enough).toDeclines
      (.cons alternative.toRecognizes.toDeclines .nil)
  cases readable with
  | statement readable =>
      have statement := (restores child readable).weaken (Nat.le_refl bound)
        (statementStop_subset child)
      exact .select children 1 rfl statement (begins_statement readable) (by decide)
  | binding declaratorReadable initialReadable =>
      exact .first (.first ((variableStatement_restores declaratorReadable initialReadable
        enough).weaken (Nat.le_refl bound) (List.nil_subset _)))
  | @function signature body signatureReadable bodyReadable =>
      have declaration := functionDeclaration_restores restores enough signatureReadable
        bodyReadable
      have begins : Begins [.keyword .functionWord] (Statement.function signature body).write := by
        rw [Statement.write]
        exact ⟨_, _, rfl, List.mem_singleton_self _⟩
      exact .first (.select declarations 1 rfl
        (declaration.weaken (Nat.le_succ bound) (List.Subset.refl _)) begins (by decide))
  | @pattern signature body parameterReadable bodyReadable =>
      have declaration := patternDeclaration_restores alternative restores enough
        parameterReadable bodyReadable
      have begins : Begins [.keyword .patternWord] (Statement.pattern signature body).write := by
        rw [Statement.write]
        exact ⟨_, _, rfl, List.mem_singleton_self _⟩
      exact .first (.select declarations 2 rfl
        (declaration.weaken (Nat.le_succ bound) (List.nil_subset _)) begins (by decide))

include alternative restores enough in
theorem sequence_restores (place : Span) {children : List Statement}
    (readable : ∀ child ∈ children, child.ReadableChild) :
    Restores span bound (Statement.compound place children).Restored
      (Grammar.sequence fuel nested) (children.flatMap Statement.write)
      ([.keyword .elseWord] ++ starts .sequence) := by
  have each : RestoresEach span bound (firstApplicable [Grammar.declaration fuel nested, nested])
      Statement.write Statement.Restored ([.keyword .elseWord] ++ starts .sequence) children :=
    .of_begins (fun child member => child_restores alternative restores enough
        (readable child member))
      (fun child member => begins_child (readable child member)) (by decide)
      (List.subset_append_left _ _)
  have ended {rest : List Token}
      (stops : nextKind rest ∉ [.keyword .elseWord] ++ starts .sequence) :
      firstApplicable [Grammar.declaration fuel nested, nested] (.endOfSource span) rest =
        .ok (none, rest) := by
    have notDeclaration : nextKind rest ∉ firsts (.symbol .declaration) := fun first =>
      stops ((by decide : firsts (.symbol .declaration) ⊆
        [.keyword .elseWord] ++ starts .sequence) first)
    have notStatement : nextKind rest ∉ firsts (.symbol .statement) := fun first =>
      stops ((by decide : firsts (.symbol .statement) ⊆
        [.keyword .elseWord] ++ starts .sequence) first)
    have declaration := declaration_recognizes alternative.toRecognizes enough
    exact (bind_of_ok (declaration.declines notDeclaration)).trans
      (bind_of_ok (alternative.declines notStatement))
  refine .position fun place' => .map (.many each ended enough) fun children' same => ?_
  have unplaced : children'.map Statement.unplaced = children.map Statement.unplaced :=
    map_eq_of_forall₂ same
  simp [Statement.Restored, Statement.unplaced, unplaced]

/-! ## Statements -/

include alternative restores enough in
theorem block_restores (place : Span) {children : List Statement}
    (readable : ∀ child ∈ children, child.ReadableChild) :
    Restores span (bound + 1) (Found (Statement.compound place children).Restored)
      (Grammar.block fuel nested) (Statement.compound place children).write [] := by
  rw [Statement.write, Statement.writeAll_eq, List.cons_append]
  refine .accept rfl (.bind (sequence_restores alternative restores enough place readable)
    (by decide) fun body same => .map (.expect rfl) fun _ _ => ⟨body, rfl, same⟩)

include restores enough in
theorem conditional_restores (place : Span) {condition : Expression} {positive : Statement}
    {negative : Option Statement} (conditionReadable : condition.Readable)
    (positiveReadable : positive.Readable)
    (positiveClosed : negative.isSome = true → positive.isOpen = false)
    (negativeReadable : ∀ other ∈ negative, other.Readable) :
    Restores span (bound + 1)
      (Found (Statement.conditional place condition positive negative).Restored)
      (Grammar.conditional fuel nested)
      (Statement.conditional place condition positive negative).write
      (statementStop (.conditional place condition positive negative)) := by
  have written : (Statement.conditional place condition positive negative).write =
      .keyword .ifWord :: (condition.write ++ ([.keyword .doWord] ++ (positive.write ++
        Lexeme.led (.keyword .elseWord) (negative.map Statement.write)))) := by
    simp [Statement.write]
  rw [written]
  refine .position fun place' => .accept rfl ?_
  refine .bind (requiredExpression_restores conditionReadable enough) (.cons (by decide))
    fun condition' sameCondition => .bind (.expect rfl) .nil fun _ _ => ?_
  cases negative with
  | none =>
      refine .bind (requiredStatement_restores restores positiveReadable) .last
        fun positive' samePositive => .pass (.pure ⟨_, rfl, ?_⟩) .last
      exact congrArg₂ (Statement.conditional .beforeSource · · none) sameCondition samePositive
  | some negative =>
      have closed : statementStop positive = [] := by simp [statementStop, positiveClosed]
      have positiveRestores := restores positive positiveReadable
      have negativeRestores := restores negative (negativeReadable negative rfl)
      rw [closed] at positiveRestores
      refine .bind (.require positiveRestores) .nil fun positive' samePositive =>
        .acceptWithin rfl (.map (.require negativeRestores) fun negative' sameNegative =>
          ⟨_, rfl, ?_⟩)
      have unplacedCondition : condition'.unplaced = condition.unplaced := sameCondition
      have unplacedPositive : positive'.unplaced = positive.unplaced := samePositive
      have unplacedNegative : negative'.unplaced = negative.unplaced := sameNegative
      simp [Statement.Restored, Statement.unplaced, unplacedCondition, unplacedPositive,
        unplacedNegative]

include restores enough in
theorem whileLoop_restores (place : Span) {condition : Expression} {body : Statement}
    (conditionReadable : condition.Readable) (bodyReadable : body.Readable) :
    Restores span (bound + 1) (Found (Statement.loop place condition body).Restored)
      (Grammar.whileLoop fuel nested) (Statement.loop place condition body).write
      (statementStop (.loop place condition body)) := by
  have written : (Statement.loop place condition body).write =
      .keyword .whileWord :: (condition.write ++ ([.keyword .doWord] ++ body.write)) := by
    simp [Statement.write]
  rw [written]
  refine .position fun place' => .accept rfl ?_
  refine .bind (requiredExpression_restores conditionReadable enough) (.cons (by decide))
    fun condition' sameCondition => .bind (.expect rfl) .nil fun _ _ => ?_
  refine .map (.require (restores body bodyReadable)) fun body' sameBody => ⟨_, rfl, ?_⟩
  exact congrArg₂ (Statement.loop .beforeSource) sameCondition sameBody

include alternative restores enough in
theorem matching_restores (place : Span) {subject : Expression} {body : Statement}
    (subjectReadable : subject.Readable) (bodyReadable : body.ReadableBlock) :
    Restores span (bound + 1) (Found (Statement.matching place subject body).Restored)
      (Grammar.matching fuel nested) (Statement.matching place subject body).write [] := by
  have written : (Statement.matching place subject body).write =
      .keyword .matchWord :: ([.keyword .withWord] ++ (subject.write ++ body.writeBlock)) := by
    simp [Statement.write]
  have block := (matchBlock_restores alternative restores enough bodyReadable).weaken
    (Nat.le_succ bound) (List.Subset.refl [])
  have begins : Begins [.keyword .beginWord] body.writeBlock := by
    cases bodyReadable
    exact ⟨_, _, rfl, List.mem_singleton_self _⟩
  rw [written]
  refine .position fun place' => .accept rfl (.bind (.expect rfl) .nil fun _ _ => ?_)
  refine .bind (requiredExpression_restores subjectReadable enough) (begins.parted (by decide))
    fun subject' sameSubject => .map (.require block) fun body' sameBody => ⟨_, rfl, ?_⟩
  exact congrArg₂ (Statement.matching .beforeSource) sameSubject sameBody

end Nested

theorem expressionStatement_restores {content : Expression} (readable : content.Readable)
    (enough : bound ≤ fuel) :
    Restores span bound (Found (Statement.expression content).Restored)
      (Grammar.expressionStatement fuel) (Statement.expression content).write [] := by
  have contentRestores := (expression_restores span fuel content readable).weaken enough
    (List.Subset.refl _)
  rw [Statement.write]
  refine .bindFound contentRestores (by decide) fun content' same =>
    .map (.expect rfl) fun _ _ => ⟨_, rfl, ?_⟩
  exact congrArg Statement.expression same

section Jumps

variable (place : Span) (enough : bound ≤ fuel)

theorem skip_restores :
    Restores span bound (Found (Statement.skip place).Restored) (Grammar.jump fuel)
      (Statement.skip place).write [] := by
  refine .of_eq (.position fun place' => ?_) fun _ _ => jump_eq _
  exact .acceptWithin rfl (.map (.expect rfl) fun _ _ => ⟨_, rfl, rfl⟩)

theorem stop_restores :
    Restores span bound (Found (Statement.stop place).Restored) (Grammar.jump fuel)
      (Statement.stop place).write [] := by
  have notSkip : TokenKind.keyword .stopWord ∉ [TokenKind.keyword .skipWord] := by decide
  refine .of_eq (.position fun place' => .pass ?_ notSkip) fun _ _ => jump_eq _
  exact .acceptWithin rfl (.map (.expect rfl) fun _ _ => ⟨_, rfl, rfl⟩)

include enough in
theorem giveBack_restores {value : Option Expression}
    (readable : ∀ part ∈ value, part.Readable) :
    Restores span bound (Found (Statement.giveBack place value).Restored) (Grammar.jump fuel)
      (Statement.giveBack place value).write [] := by
  have notSkip : TokenKind.keyword .returnWord ∉ [TokenKind.keyword .skipWord] := by decide
  have notStop : TokenKind.keyword .returnWord ∉ [TokenKind.keyword .stopWord] := by decide
  rw [Statement.write, List.cons_append]
  refine .of_eq (.position fun place' => .pass ?_ notSkip) fun _ _ => jump_eq _
  refine .pass ?_ notStop
  refine .acceptWithin rfl ?_
  cases value with
  | none =>
      have declines := (expression_recognizes span fuel).toDeclines
      refine .bind declines.restores (by decide) fun _ isNone => .map (.expect rfl) fun _ _ => ⟨_, rfl, ?_⟩
      subst isNone
      rfl
  | some value =>
      have valueRestores := (expression_restores span fuel value (readable value rfl)).weaken
        enough (List.Subset.refl _)
      refine .bindFound valueRestores (by decide) fun value' same =>
        .map (.expect rfl) fun _ _ => ⟨_, rfl, ?_⟩
      exact congrArg (fun value => Statement.giveBack .beforeSource (some value)) same

end Jumps

theorem emptyStatement_restores (place : Span) :
    Restores span bound (Found (Statement.empty place).Restored) Grammar.emptyStatement
      (Statement.empty place).write [] :=
  .position fun _ => .acceptWithin rfl (.pure ⟨_, rfl, rfl⟩)

/-! ## All statements -/

theorem statements_decline {nested : Grammar.StatementRule}
    (alternative : Alternative span bound nested (.symbol .statement)) (enough : bound ≤ fuel) :
    Forall₂ (Declines span)
      [Grammar.block fuel nested, Grammar.expressionStatement fuel,
        Grammar.conditional fuel nested, Grammar.forLoop fuel nested,
        Grammar.whileLoop fuel nested, Grammar.jump fuel, Grammar.matching fuel nested,
        Grammar.emptyStatement]
      [.symbol .compound, .symbol .expressionStatement, .symbol .conditional, .symbol .forLoop,
        .symbol .whileLoop, .symbol .jump, .symbol .matching, .symbol .empty] := by
  refine .cons (block_recognizes alternative enough).toDeclines ?_
  refine .cons (expressionStatement_recognizes enough).toDeclines ?_
  refine .cons (conditional_alternative alternative enough).toRecognizes.toDeclines ?_
  refine .cons (forLoop_alternative alternative enough).toRecognizes.toDeclines ?_
  refine .cons (whileLoop_alternative alternative enough).toRecognizes.toDeclines ?_
  refine .cons (jump_recognizes enough).toDeclines ?_
  refine .cons (matching_recognizes alternative enough).toDeclines ?_
  exact .cons (@emptyStatement_recognizes span bound).toDeclines .nil

theorem statementWith_restores {nested : Grammar.StatementRule}
    (alternative : Alternative span bound nested (.symbol .statement))
    (restores : ∀ statement : Statement, statement.Readable →
      Restores span bound (Found statement.Restored) nested statement.write
        (statementStop statement))
    (enough : bound < fuel) (statement : Statement) (readable : statement.Readable) :
    Restores span (bound + 1) (Found statement.Restored) (Grammar.statementWith fuel nested)
      statement.write (statementStop statement) := by
  have enough' := Nat.le_of_lt enough
  have declines := statements_decline alternative enough'
  have led (lead : Lexeme) {others : List Lexeme} : Begins [lead.kind] (lead :: others) :=
    ⟨_, _, rfl, List.mem_singleton_self _⟩
  cases readable with
  | @expression content contentReadable =>
      have begins : Begins expressionStarts (Statement.expression content).write := by
        rw [Statement.write]
        exact (begins_write content).append _
      exact .select declines 1 rfl (expressionStatement_restores contentReadable enough) begins
        (by decide)
  | compound childrenReadable =>
      exact .first (block_restores alternative restores enough' _ childrenReadable)
  | conditional conditionReadable positiveReadable positiveClosed negativeReadable =>
      exact .select declines 2 rfl (conditional_restores restores enough' _ conditionReadable
        positiveReadable positiveClosed negativeReadable) (led _) (by decide)
  | loop conditionReadable bodyReadable =>
      exact .select declines 4 rfl (whileLoop_restores restores enough' _ conditionReadable
        bodyReadable) (led _) (by decide)
  | skip => exact .select declines 5 rfl (skip_restores _) (led _) (by decide)
  | stop => exact .select declines 5 rfl (stop_restores _) (led _) (by decide)
  | giveBack valueReadable =>
      exact .select declines 5 rfl (giveBack_restores _ enough valueReadable) (led _) (by decide)
  | matching subjectReadable bodyReadable =>
      exact .select declines 6 rfl (matching_restores alternative restores enough' _
        subjectReadable bodyReadable) (led _) (by decide)
  | empty => exact .select declines 7 rfl (emptyStatement_restores _) (led _) (by decide)

/-- The rule for statements restores all of them that have fewer tokens than it has
fuel. -/
theorem statement_restores (span : Span) (fuel : Nat) (statement : Statement)
    (readable : statement.Readable) :
    Restores span fuel (Found statement.Restored) (Grammar.statement fuel) statement.write
      (statementStop statement) := by
  induction fuel generalizing statement with
  | zero => exact ⟨fun _ _ short => absurd short (Nat.not_lt_zero _)⟩
  | succ fuel ih =>
      exact statementWith_restores (statement_alternative span fuel) ih (Nat.lt_succ_self fuel)
        statement readable

/-- A sequence without a block around it is restored as a program. -/
theorem program_restores {place : Span} {children : List Statement}
    (readable : ∀ child ∈ children, child.ReadableChild) {tokens : List Token}
    (written : tokens.map Token.lexeme = children.flatMap Statement.write)
    (enough : tokens.length < fuel) :
    ∃ result, (Statement.compound place children).Restored result ∧
      Grammar.program fuel (.endOfSource span) tokens = .ok (result, []) := by
  have sequence := sequence_restores (statement_alternative span fuel)
    (statement_restores span fuel) (Nat.le_refl fuel) place readable
  obtain ⟨result, same, read⟩ := sequence.restore written
    (by decide : nextKind [] ∉ [.keyword .elseWord] ++ starts .sequence) (by simpa using enough)
  rw [List.append_nil] at read
  exact ⟨result, same, bind_of_ok read⟩

end Syntax

end Plainspoken
