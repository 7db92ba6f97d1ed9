import Plainspoken.Proofs.Syntax.RestoringStatements

/-!
# Legible results

Whatever a rule of the grammar reads can be written so that it is read again, and
writing it takes no more parentheses than were read.  For most rules this is a
matter of adding up.  What comes next decides two cases: a pipe that a part with
`OTHERWISE` follows has no `OTHERWISE` missing, unless it stood in parentheses,
and a statement that `ELSE` follows is closed.
-/

namespace Plainspoken

namespace Syntax

open Rule

/-! ## Parentheses -/

def openings (lexemes : List Lexeme) : Nat :=
  lexemes.count (.mark .openParenthesis)

def opened (tokens : List Token) : Nat :=
  openings (tokens.map Token.lexeme)

@[simp]
theorem openings_nil : openings [] = 0 :=
  rfl

@[simp]
theorem openings_append (first second : List Lexeme) :
    openings (first ++ second) = openings first + openings second :=
  List.count_append

@[simp]
theorem openings_cons (lexeme : Lexeme) (lexemes : List Lexeme) :
    openings (lexeme :: lexemes) =
      openings lexemes + if lexeme = .mark .openParenthesis then 1 else 0 := by
  simp [openings, List.count_cons]

theorem opened_tail_le (tokens : List Token) : opened tokens.tail ≤ opened tokens := by
  cases tokens with
  | nil => exact Nat.le_refl _
  | cons token tokens => simp [opened]

private theorem opened_of_parenthesis {tokens : List Token}
    (opens : nextKind tokens = .mark .openParenthesis) :
    opened tokens = opened tokens.tail + 1 := by
  cases tokens with
  | nil => cases opens
  | cons token tokens =>
      obtain ⟨lexeme, place⟩ := token
      cases lexeme with
      | mark symbol =>
          cases opens
          simp [opened]
      | _ => cases opens

@[simp]
theorem unaryOperator_lexeme_ne (operator : UnaryOperator) :
    operator.lexeme ≠ .mark .openParenthesis := by
  cases operator <;> decide

@[simp]
theorem binaryOperator_lexeme_ne (operator : BinaryOperator) :
    operator.lexeme ≠ .mark .openParenthesis := by
  cases operator with
  | arithmetic operator => cases operator <;> decide
  | compare comparison => cases comparison <;> decide
  | _ => decide

@[simp]
theorem value_lexeme_ne (value : Value) : value.lexeme ≠ .mark .openParenthesis := by
  cases value <;> simp [Value.lexeme]

@[simp]
theorem valueType_lexeme_ne (type : ValueType) : type.lexeme ≠ .mark .openParenthesis := by
  cases type <;> decide

section Operands

variable (expression : Expression) {required larger : Nat}

theorem openings_operand_of_lt (looser : expression.level < required) :
    openings (expression.operand required) = openings expression.write + 1 := by
  simp [expression.operand_of_lt looser]

private theorem openings_operand_le :
    openings (expression.operand required) ≤ openings expression.write + 1 := by
  by_cases looser : expression.level < required
  · exact Nat.le_of_eq (openings_operand_of_lt expression looser)
  · rw [expression.operand_of_le (Nat.not_lt.mp looser)]
    exact Nat.le_succ _

theorem openings_operand_mono (looser : required ≤ larger) :
    openings (expression.operand required) ≤ openings (expression.operand larger) := by
  by_cases below : expression.level < larger
  · rw [openings_operand_of_lt expression below]
    exact openings_operand_le expression
  · rw [expression.operand_of_le (by omega), expression.operand_of_le (by omega)]

end Operands

/-! ## What rules give -/

section Rules

variable {α β : Type} {tokens : List Token}

/-- Whatever the rule makes of the tokens is good. -/
def Gives (rule : Rule α) (tokens : List Token) (good : α → List Token → Prop) : Prop :=
  ∀ ⦃ending : StreamEnd⦄ ⦃result : α⦄ ⦃rest : List Token⦄,
    rule ending tokens = .ok (result, rest) → good result rest

/-- The rule does not apply and uses nothing, or its result is good. -/
def Perhaps (tokens : List Token) (good : α → List Token → Prop) : Option α → List Token → Prop
  | none, rest => rest = tokens
  | some value, rest => good value rest

/-- The result is readable, and it is written with no more parentheses than were
used. -/
structure Covered (readable : α → Prop) (write : α → List Lexeme) (tokens : List Token)
    (result : α) (rest : List Token) : Prop where
  isReadable : readable result
  enough : openings (write result) + opened rest ≤ opened tokens

namespace Gives

variable {good good' : α → List Token → Prop} {goodLast : β → List Token → Prop}

theorem mono {rule : Rule α} (gives : Gives rule tokens good)
    (implied : ∀ result rest, good result rest → good' result rest) : Gives rule tokens good' :=
  fun _ _ _ read => implied _ _ (gives read)

theorem pure {result : α} (isGood : good result tokens) : Gives (Pure.pure result) tokens good := by
  intro ending result' rest read
  obtain ⟨rfl, rfl⟩ := pure_ok_iff.mp read
  exact isGood

theorem fail {cause : GrammarCause} : Gives (Rule.fail cause) tokens good :=
  fun _ _ _ read => absurd read fail_not_ok

theorem bind {first : Rule α} {second : α → Rule β} (left : Gives first tokens good)
    (right : ∀ middle between, good middle between → Gives (second middle) between goodLast) :
    Gives (first >>= second) tokens goodLast := by
  intro ending result rest read
  obtain ⟨middle, between, firstRead, secondRead⟩ := bind_ok_iff.mp read
  exact right middle between (left firstRead) secondRead

theorem current {next : Token → Rule β}
    (gives : ∀ token, token.kind = nextKind tokens → Gives (next token) tokens goodLast) :
    Gives (Rule.current >>= next) tokens goodLast := by
  intro ending result rest read
  refine gives (tokens.headD (endToken ending)) ?_ read
  cases tokens with
  | nil => cases ending <;> rfl
  | cons token others => rfl

theorem position {next : Span → Rule β} (gives : ∀ place, Gives (next place) tokens goodLast) :
    Gives (Rule.position >>= next) tokens goodLast :=
  fun _ _ _ read => gives _ read

theorem advance {next : Unit → Rule β} (gives : Gives (next ()) tokens.tail goodLast) :
    Gives (Rule.advance >>= next) tokens goodLast := by
  intro ending result rest read
  obtain ⟨_, between, advanceRead, nextRead⟩ := bind_ok_iff.mp read
  have used : between = tokens.tail := by
    unfold Rule.advance at advanceRead
    split at advanceRead
    · cases advanceRead
    · cases advanceRead
      rfl
  subst used
  exact gives nextRead

/-- A token that may stand there. -/
theorem accept {kind : TokenKind} {next : Bool → Rule β}
    (present : nextKind tokens = kind →
      ∀ rest, opened rest ≤ opened tokens → Gives (next true) rest goodLast)
    (absent : nextKind tokens ≠ kind → Gives (next false) tokens goodLast) :
    Gives (Rule.accept kind >>= next) tokens goodLast := by
  have found : Gives (acceptAny [kind]) tokens fun found rest =>
      found.isSome = true ∧ nextKind tokens = kind ∧ rest = tokens.tail ∨
        found.isSome = false ∧ nextKind tokens ≠ kind ∧ rest = tokens := by
    refine .current fun token sameKind => ?_
    simp only [sameKind, List.contains_cons, List.contains_nil, Bool.or_false, beq_iff_eq]
    by_cases same : nextKind tokens = kind
    · rw [if_pos same]
      exact .advance (.pure (.inl ⟨rfl, same, rfl⟩))
    · rw [if_neg same]
      exact .pure (.inr ⟨rfl, same, rfl⟩)
  have accepted : Gives (Rule.accept kind) tokens fun isThere rest =>
      isThere = true ∧ nextKind tokens = kind ∧ rest = tokens.tail ∨
        isThere = false ∧ nextKind tokens ≠ kind ∧ rest = tokens :=
    found.bind fun _ _ good => .pure good
  refine accepted.bind ?_
  rintro _ _ (⟨rfl, same, rfl⟩ | ⟨rfl, other, rfl⟩)
  · exact present same tokens.tail (opened_tail_le tokens)
  · exact absent other

/-- A word that may stand there, when it makes no difference to what follows. -/
theorem flag {kind : TokenKind} {next : Bool → Rule β}
    (gives : ∀ isThere rest, opened rest ≤ opened tokens → Gives (next isThere) rest goodLast) :
    Gives (Rule.accept kind >>= next) tokens goodLast :=
  .accept (fun _ rest fewer => gives true rest fewer) fun _ =>
    gives false tokens (Nat.le_refl _)

theorem expect {kind : TokenKind} {next : Unit → Rule β}
    (gives : ∀ rest, opened rest ≤ opened tokens → Gives (next ()) rest goodLast) :
    Gives (Rule.expect kind >>= next) tokens goodLast := by
  have expected : Gives (Rule.expect kind) tokens fun _ rest => opened rest ≤ opened tokens :=
    .accept (fun _ rest fewer => .pure fewer) fun _ => .fail
  exact expected.bind fun _ rest fewer => gives rest fewer

theorem identifier {next : String → Rule β}
    (gives : ∀ name rest, opened rest ≤ opened tokens → Gives (next name) rest goodLast) :
    Gives (Rule.identifier >>= next) tokens goodLast := by
  have named : Gives Rule.identifier tokens fun _ rest => opened rest ≤ opened tokens := by
    refine .current fun token _ => ?_
    cases token.lexeme with
    | identifier name => exact .advance (.pure (opened_tail_le tokens))
    | _ => exact .fail
  exact named.bind fun name rest fewer => gives name rest fewer

/-- A rule that has to apply. -/
theorem require {rule : Rule (Option α)} {symbol : Symbol}
    (gives : Gives rule tokens (Perhaps tokens good)) :
    Gives (Rule.require symbol rule) tokens good := by
  refine gives.bind fun found between => ?_
  cases found with
  | none => exact fun _ => .fail
  | some value => exact fun isGood => .pure isGood

/-- A rule and what follows if it applies. -/
theorem bindFound {first : Rule (Option α)} {second : Option α → Rule (Option β)}
    (left : Gives first tokens (Perhaps tokens good)) (absent : second none = Pure.pure none)
    (right : ∀ value between, good value between →
      Gives (second (some value)) between (Perhaps tokens goodLast)) :
    Gives (first >>= second) tokens (Perhaps tokens goodLast) := by
  refine left.bind fun found between => ?_
  cases found with
  | none =>
      intro unused
      rw [absent]
      exact .pure unused
  | some value => exact right value between

theorem noRule : Gives (firstApplicable []) tokens (Perhaps tokens good) :=
  .pure rfl

theorem orElse {rule : Rule (Option α)} {rules : List (Rule (Option α))}
    (gives : Gives rule tokens (Perhaps tokens good))
    (others : Gives (firstApplicable rules) tokens (Perhaps tokens good)) :
    Gives (firstApplicable (rule :: rules)) tokens (Perhaps tokens good) := by
  refine gives.bind fun found between => ?_
  cases found with
  | none =>
      rintro rfl
      exact others
  | some value => exact fun isGood => .pure isGood

end Gives

/-- Results that were read one after another. -/
inductive Steps (step : List Token → α → List Token → Prop) :
    List Token → List α → List Token → Prop where
  | nil {tokens : List Token} : Steps step tokens [] tokens
  | cons {tokens between rest : List Token} {first : α} {others : List α}
      (taken : step tokens first between) (further : Steps step between others rest) :
      Steps step tokens (first :: others) rest

theorem Gives.many {rule : Rule (Option α)} {step : List Token → α → List Token → Prop}
    (gives : ∀ tokens, Gives rule tokens (Perhaps tokens (step tokens))) (fuel : Nat) :
    Gives (Rule.many fuel rule) tokens (Steps step tokens) := by
  induction fuel generalizing tokens with
  | zero => exact .pure .nil
  | succ fuel ih =>
      refine (gives tokens).bind fun found between => ?_
      cases found with
      | none =>
          rintro rfl
          exact .pure .nil
      | some value =>
          intro taken
          exact ih.bind fun others rest further => .pure (.cons taken further)

theorem Steps.covered {readable : α → Prop} {write : α → List Lexeme} {items : List α}
    {rest : List Token} (steps : Steps (Covered readable write) tokens items rest) :
    (∀ item ∈ items, readable item) ∧
      openings (items.flatMap write) + opened rest ≤ opened tokens := by
  induction steps with
  | nil => simp
  | cons taken further ih =>
      obtain ⟨readableOthers, enough⟩ := ih
      refine ⟨List.forall_mem_cons.mpr ⟨taken.isReadable, readableOthers⟩, ?_⟩
      have enoughFirst := taken.enough
      rw [List.flatMap_cons, openings_append]
      omega

/-- What every step keeps holds of what the results are joined to. -/
theorem Steps.foldl {step : List Token → α → List Token → Prop} {join : β → α → β}
    {kept : β → List Token → Prop} {items : List α} {rest : List Token}
    (steps : Steps step tokens items rest)
    (keeps : ∀ {joined tokens item rest}, kept joined tokens → step tokens item rest →
      kept (join joined item) rest) {first : β} (start : kept first tokens) :
    kept (items.foldl join first) rest := by
  induction steps generalizing first with
  | nil => exact start
  | cons taken further ih => exact ih (keeps start taken)

end Rules

/-! ## Operands -/

/-- An expression that is covered at a place that requires a level. -/
abbrev CoveredAt (required : Nat) : List Token → Expression → List Token → Prop :=
  Covered Expression.Readable (Expression.operand required)

theorem Covered.loosen {required larger : Nat} {tokens rest : List Token} {expression : Expression}
    (covered : CoveredAt larger tokens expression rest) (looser : required ≤ larger) :
    CoveredAt required tokens expression rest where
  isReadable := covered.isReadable
  enough := by
    have fewer := openings_operand_mono expression looser
    have enough := covered.enough
    omega

section Operands

variable {nested : Grammar.ExpressionRule} {fuel : Nat}
  (nestedGives : ∀ tokens, Gives nested tokens (Perhaps tokens (CoveredAt 0 tokens)))
  (tokens : List Token)

include nestedGives in
theorem furtherArgument_gives :
    Gives (Grammar.furtherArgument nested) tokens (Perhaps tokens
      (Covered Expression.Readable (fun argument => .mark .comma :: argument.write) tokens)) := by
  refine .accept (fun _ rest fewer => ?_) fun _ => .pure rfl
  refine (nestedGives rest).require.bind fun argument between covered => .pure ?_
  have enough := covered.enough
  exact ⟨covered.isReadable, by simp at enough ⊢; omega⟩

include nestedGives in
theorem callArguments_gives :
    Gives (Grammar.callArguments fuel nested) tokens
      (Covered (fun arguments => ∀ argument ∈ arguments, argument.Readable)
        (fun arguments => Lexeme.listed (.keyword .withWord) (arguments.map Expression.write))
        tokens) := by
  refine .accept (fun _ rest fewer => ?_) fun _ => .pure ⟨by simp, by simp [Lexeme.listed]⟩
  refine (nestedGives rest).require.bind fun first between firstCovered => ?_
  refine (Gives.many (furtherArgument_gives nestedGives) fuel).bind fun others last steps =>
    .pure ?_
  obtain ⟨othersReadable, othersEnough⟩ := steps.covered
  have firstEnough := firstCovered.enough
  refine ⟨List.forall_mem_cons.mpr ⟨firstCovered.isReadable, othersReadable⟩, ?_⟩
  rw [List.map_cons, Lexeme.listed, List.flatMap_map]
  simp at firstEnough ⊢
  omega

include nestedGives in
theorem callFrom_gives (place : Span) :
    Gives (Grammar.callFrom fuel nested place) tokens (CoveredAt 11 tokens) := by
  refine .identifier fun name rest fewer => ?_
  refine (callArguments_gives nestedGives rest).bind fun arguments between covered => ?_
  refine .expect fun last fewer' => .pure ⟨.call covered.isReadable, ?_⟩
  have enough := covered.enough
  rw [Expression.operand_of_le _ (Nat.le_refl 11), Expression.write_call]
  simp at enough ⊢
  omega

include nestedGives in
theorem parenthesised_gives :
    Gives (Grammar.parenthesised nested) tokens (CoveredAt 0 tokens) := by
  refine (nestedGives tokens).require.bind fun inner between covered => ?_
  refine .expect fun rest fewer => .pure ⟨covered.isReadable, ?_⟩
  have enough := covered.enough
  omega

include nestedGives in
theorem primary_gives :
    Gives (Grammar.primary fuel nested) tokens (Perhaps tokens (CoveredAt 11 tokens)) := by
  have fewer := opened_tail_le tokens
  refine .current fun token sameKind => ?_
  have literal (value : Value) : Gives
      (advance >>= fun _ => pure (some (Expression.literal token.span value))) tokens
      (Perhaps tokens (CoveredAt 11 tokens)) := by
    refine .advance (.pure ⟨.literal, ?_⟩)
    rw [Expression.operand_of_le _ (Nat.le_refl 11), Expression.write]
    simpa using fewer
  obtain ⟨lexeme, place⟩ := token
  cases lexeme with
  | number amount => exact literal (.number amount)
  | text content => exact literal (.text content)
  | fact holds => exact literal (.fact holds)
  | identifier name =>
      refine .advance (.pure ⟨.identifier, ?_⟩)
      rw [Expression.operand_of_le _ (Nat.le_refl 11), Expression.write]
      simpa using fewer
  | keyword word =>
      cases word with
      | noneWord => exact literal .nothing
      | callWord =>
          refine .advance ((callFrom_gives nestedGives tokens.tail place).bind
            fun call rest covered => .pure ⟨covered.isReadable, ?_⟩)
          exact Nat.le_trans covered.enough fewer
      | _ => exact .pure rfl
  | mark symbol =>
      cases symbol with
      | openParenthesis =>
          refine .advance ((parenthesised_gives nestedGives tokens.tail).bind
            fun inner rest covered => .pure ⟨covered.isReadable, ?_⟩)
          -- The parentheses that were read pay for those that may be needed here.
          have one := opened_of_parenthesis sameKind.symm
          have enclosed := @openings_operand_le inner 11
          have enough := covered.enough
          rw [Expression.operand_zero] at enough
          omega
      | _ => exact .pure rfl
  | _ => exact .pure rfl

include nestedGives in
theorem noneTest_gives :
    Gives (Grammar.noneTest fuel nested) tokens (Perhaps tokens (CoveredAt 10 tokens)) := by
  refine .position fun place => .bindFound (primary_gives nestedGives tokens) rfl
    fun operand between covered => ?_
  refine .accept (fun _ rest fewer => .pure ⟨.noneTest covered.isReadable, ?_⟩)
    fun _ => .pure (covered.loosen (by decide))
  have enough := covered.enough
  rw [Expression.operand_of_le _ (Nat.le_refl 10), Expression.write_noneTest]
  simp
  omega

include nestedGives in
theorem unary_gives :
    Gives (Grammar.unary fuel nested) tokens (Perhaps tokens (CoveredAt 9 tokens)) := by
  refine .current fun token _ => ?_
  cases Grammar.unaryOperator? token.lexeme with
  | none =>
      refine (noneTest_gives nestedGives tokens).mono fun found rest => ?_
      cases found with
      | none => exact id
      | some operand => exact fun covered => covered.loosen (by decide)
  | some operator =>
      refine .advance ((noneTest_gives nestedGives tokens.tail).require.bind
        fun operand rest covered => .pure ⟨.unary covered.isReadable, ?_⟩)
      have fewer := opened_tail_le tokens
      have enough := covered.enough
      rw [Expression.operand_of_le _ (Nat.le_refl 9), Expression.write_unary]
      simp
      omega

end Operands

/-! ## Chains -/

section Chains

variable {β : Type} {required fuel : Nat} {operand : Grammar.ExpressionRule}
  {rule : Rule (Option β)}

/-- Parts that are written behind what they are joined with. -/
theorem chain_gives (joint : Joint β)
    (operandGives : ∀ tokens, Gives operand tokens (Perhaps tokens (CoveredAt (required + 1) tokens)))
    (partGives : ∀ tokens, Gives rule tokens
      (Perhaps tokens (Covered joint.Readable joint.write tokens)))
    (joined : ∀ {left : Expression} {part : β}, left.Readable → joint.Readable part →
      (joint.join left part).Readable ∧ (joint.join left part).operand required =
        left.operand required ++ joint.write part)
    (tokens : List Token) :
    Gives
      (do
        match ← operand with
        | none => return none
        | some first => return some ((← many fuel rule).foldl joint.join first))
      tokens (Perhaps tokens (CoveredAt required tokens)) := by
  refine .bindFound (operandGives tokens) rfl fun first between covered => ?_
  refine (Gives.many partGives fuel).bind fun parts rest steps => .pure ?_
  refine steps.foldl ?_ (covered.loosen (Nat.le_succ required))
  intro left between part rest leftCovered partCovered
  obtain ⟨isReadable, written⟩ := joined leftCovered.isReadable partCovered.isReadable
  have leftEnough := leftCovered.enough
  have partEnough := partCovered.enough
  refine ⟨isReadable, ?_⟩
  rw [written, openings_append]
  omega

theorem binaryLevel_gives {level : Nat} {table : Grammar.OperatorTable}
    (operandGives : ∀ tokens, Gives operand tokens (Perhaps tokens (CoveredAt (level + 1) tokens)))
    (levels : ∀ entry ∈ table, entry.2.level = level) (tokens : List Token) :
    Gives (Grammar.binaryLevel fuel operand table) tokens
      (Perhaps tokens (CoveredAt level tokens)) := by
  refine chain_gives (binaryJoint level) operandGives ?_ ?_ tokens
  · intro tokens
    refine .current fun token _ => ?_
    cases known : table.lookup token.kind with
    | none => exact .pure rfl
    | some operator =>
        obtain ⟨before, after, rfl, -⟩ := List.lookup_eq_some_iff.mp known
        have operatorLevel : operator.level = level :=
          levels (token.kind, operator) (by simp)
        refine .advance ((operandGives tokens.tail).require.bind
          fun right rest covered => .pure ⟨⟨operatorLevel, covered.isReadable⟩, ?_⟩)
        have fewer := opened_tail_le tokens
        have enough := covered.enough
        simp [binaryJoint]
        omega
  · rintro left ⟨operator, right⟩ leftReadable ⟨operatorLevel, rightReadable⟩
    refine ⟨.binary leftReadable rightReadable, ?_⟩
    have sameLevel : operator.level = level := operatorLevel
    have tight : level ≤ (Grammar.joinBinary left (operator, right)).level :=
      Nat.le_of_eq sameLevel.symm
    change (Grammar.joinBinary left (operator, right)).operand level = _
    rw [Expression.operand_of_le _ tight, Grammar.joinBinary, Expression.write_binary, sameLevel]
    rfl

end Chains

section Levels

variable {nested : Grammar.ExpressionRule} {fuel : Nat}
  (nestedGives : ∀ tokens, Gives nested tokens (Perhaps tokens (CoveredAt 0 tokens)))
  (tokens : List Token)

include nestedGives in
theorem binary_gives :
    Gives (Grammar.binary fuel nested) tokens (Perhaps tokens (CoveredAt 3 tokens)) := by
  have signed := @unary_gives nested fuel nestedGives
  have multiplication := @binaryLevel_gives fuel _ 8 Grammar.multiplications signed (by decide)
  have addition := @binaryLevel_gives fuel _ 7 Grammar.additions multiplication (by decide)
  have relation := @binaryLevel_gives fuel _ 6 Grammar.relations addition (by decide)
  have equality := @binaryLevel_gives fuel _ 5 Grammar.equalities relation (by decide)
  have conjunction := @binaryLevel_gives fuel _ 4 Grammar.conjunctions equality (by decide)
  exact binaryLevel_gives conjunction (by decide) tokens

include nestedGives in
theorem ternaryPart_gives :
    Gives (Grammar.ternaryPart fuel nested) tokens
      (Perhaps tokens (Covered ternaryJoint.Readable ternaryJoint.write tokens)) := by
  refine .accept (fun _ rest fewer => ?_) fun _ => .pure rfl
  refine (binary_gives nestedGives rest).require.bind fun yes between yesCovered => ?_
  have yesEnough := yesCovered.enough
  refine .accept (fun _ rest fewer' => ?_) fun _ => .pure ⟨⟨yesCovered.isReadable, nofun⟩, ?_⟩
  · refine (binary_gives nestedGives rest).require.bind fun no last noCovered =>
      .pure ⟨⟨yesCovered.isReadable, by simpa using noCovered.isReadable⟩, ?_⟩
    have noEnough := noCovered.enough
    simp [ternaryJoint, Lexeme.led]
    omega
  · simp [ternaryJoint, Lexeme.led]
    omega

include nestedGives in
theorem ternary_gives :
    Gives (Grammar.ternary fuel nested) tokens (Perhaps tokens (CoveredAt 2 tokens)) := by
  refine chain_gives ternaryJoint (binary_gives nestedGives) (ternaryPart_gives nestedGives) ?_
    tokens
  rintro left ⟨yes, no⟩ leftReadable ⟨yesReadable, noReadable⟩
  refine ⟨.ternary leftReadable yesReadable noReadable, ?_⟩
  change (Expression.ternary left.span left yes no).operand 2 = _
  rw [Expression.operand_of_le _ (Nat.le_refl 2), Expression.write_ternary, List.append_assoc]
  rfl

/-! ## Pipes -/

/-- What is kept while the parts of a pipe are joined.  If an `OTHERWISE` is
missing and comes next, the pipe stood in parentheses. -/
structure PipeCovered (tokens : List Token) (expression : Expression) (rest : List Token) : Prop
    extends CoveredAt 1 tokens expression rest where
  enclosed (awaits : expression.awaitsOtherwise = true)
    (comes : nextKind rest = .keyword .otherwiseWord) : CoveredAt 2 tokens expression rest

/-- A part of a pipe and what comes before and behind it. -/
structure PipePartCovered (tokens : List Token) (part : Option Expression × Option Expression)
    (rest : List Token) : Prop
    extends Covered pipeJoint.Readable pipeJoint.write tokens part rest where
  before (lacks : part.1 = none) : nextKind tokens = .keyword .otherwiseWord
  behind (lacks : part.2 = none) : nextKind rest ≠ .keyword .otherwiseWord

include nestedGives in
theorem pipePart_gives :
    Gives (Grammar.pipePart fuel nested) tokens (Perhaps tokens (PipePartCovered tokens)) := by
  refine .accept (fun _ rest fewer => ?_) fun _ => .accept (fun comes rest fewer => ?_)
    fun _ => .pure rfl
  · refine (ternary_gives nestedGives rest).require.bind fun success between covered => ?_
    have successReadable : ∀ part ∈ some success, part.Readable := by
      simpa using covered.isReadable
    have enough := covered.enough
    refine .accept (fun _ rest fewer' => ?_) fun stops =>
      .pure ⟨⟨⟨successReadable, nofun, .inl rfl⟩, ?_⟩, nofun, fun _ => stops⟩
    · refine (ternary_gives nestedGives rest).require.bind fun failure last covered' =>
        .pure ⟨⟨⟨successReadable, by simpa using covered'.isReadable, .inl rfl⟩, ?_⟩, nofun, nofun⟩
      have enough' := covered'.enough
      simp [pipeJoint, Lexeme.led]
      omega
    · simp [pipeJoint, Lexeme.led]
      omega
  · refine (ternary_gives nestedGives rest).require.bind fun failure last covered =>
      .pure ⟨⟨⟨nofun, by simpa using covered.isReadable, .inr rfl⟩, ?_⟩, fun _ => comes, nofun⟩
    have enough := covered.enough
    simp [pipeJoint, Lexeme.led]
    omega

theorem PipeCovered.join {first : Expression} {tokens between rest : List Token}
    {part : Option Expression × Option Expression} (covered : PipeCovered tokens first between)
    (partCovered : PipePartCovered between part rest) :
    PipeCovered tokens (Grammar.joinPipe first part) rest := by
  obtain ⟨success, failure⟩ := part
  obtain ⟨successReadable, failureReadable, nonempty⟩ := partCovered.isReadable
  have headEnough : openings (first.pipeHead success) + opened between ≤ opened tokens := by
    unfold Expression.pipeHead
    cases awaits : success.isNone && first.awaitsOtherwise with
    | true =>
        obtain ⟨lacks, awaiting⟩ := Bool.and_eq_true_iff.mp awaits
        have comes := partCovered.before (Option.isNone_iff_eq_none.mp lacks)
        have enough := (covered.enclosed awaiting comes).enough
        have looser : first.level < 2 := by simp [level_of_awaitsOtherwise awaiting]
        rw [openings_operand_of_lt first looser] at enough
        simp [Lexeme.enclosedIf]
        omega
    | false =>
        rw [Bool.or_false]
        exact covered.enough
  refine ⟨⟨.pipe covered.isReadable successReadable failureReadable nonempty, ?_⟩, ?_⟩
  · have partEnough := partCovered.enough
    change openings ((Expression.pipe first.span first success failure).operand 1) + _ ≤ _
    rw [Expression.operand_of_le _ (Nat.le_refl 1), Expression.write_pipe, List.append_assoc,
      openings_append]
    simp only [pipeJoint] at partEnough
    omega
  · intro awaits comes
    cases failure with
    | none => exact absurd comes (partCovered.behind rfl)
    | some failure => cases success <;> cases awaits

include nestedGives in
theorem pipe_gives :
    Gives (Grammar.pipe fuel nested) tokens (Perhaps tokens (CoveredAt 1 tokens)) := by
  refine .bindFound (ternary_gives nestedGives tokens) rfl fun first between covered => ?_
  refine (Gives.many (pipePart_gives nestedGives) fuel).bind fun parts rest steps => .pure ?_
  have start : PipeCovered tokens first between :=
    ⟨covered.loosen (by decide), fun _ _ => covered⟩
  have joined : PipeCovered tokens (parts.foldl Grammar.joinPipe first) rest :=
    steps.foldl (fun kept taken => kept.join taken) start
  exact joined.toCovered

/-! ## Assignments -/

theorem joinAssignments_covered {first : Expression} {others : List Expression}
    {tokens between rest : List Token} (covered : CoveredAt 1 tokens first between)
    (steps : Steps (CoveredAt 1) between others rest) :
    CoveredAt 0 tokens (Grammar.joinAssignments first others) rest := by
  induction steps generalizing tokens first with
  | nil => exact covered.loosen (by decide)
  | cons taken further ih =>
      have value := ih taken
      have targetEnough := covered.enough
      have valueEnough := value.enough
      refine ⟨.assign covered.isReadable value.isReadable, ?_⟩
      rw [Expression.operand_zero] at valueEnough ⊢
      rw [Grammar.joinAssignments, Expression.write_assign]
      simp
      omega

include nestedGives in
theorem assignment_gives :
    Gives (Grammar.assignment fuel nested) tokens (Perhaps tokens (CoveredAt 0 tokens)) := by
  have part (tokens : List Token) : Gives (Grammar.assignedPart fuel nested) tokens
      (Perhaps tokens (CoveredAt 1 tokens)) := by
    refine .accept (fun _ rest fewer => ?_) fun _ => .pure rfl
    refine (pipe_gives nestedGives rest).require.bind fun value last covered => .pure ?_
    exact ⟨covered.isReadable, Nat.le_trans covered.enough fewer⟩
  refine .bindFound (pipe_gives nestedGives tokens) rfl fun first between covered => ?_
  refine (Gives.many part fuel).bind fun others rest steps => .pure ?_
  exact joinAssignments_covered covered steps

end Levels

theorem expression_gives (fuel : Nat) (tokens : List Token) :
    Gives (Grammar.expression fuel) tokens (Perhaps tokens (CoveredAt 0 tokens)) := by
  induction fuel generalizing tokens with
  | zero => exact .pure rfl
  | succ fuel ih => exact assignment_gives ih tokens

end Syntax

end Plainspoken
