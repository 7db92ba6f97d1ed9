import Plainspoken.Proofs.Syntax.Reading

/-!
# Reading expressions

Every level of the grammar of expressions recognises its form.  A level takes
all operators that it or a tighter level knows, so these are the tokens that it
does not stop at.

One choice is not settled by the next token: `OTHERWISE` after `THEN` may belong
to the same part of a pipe or begin the next one.  Taking it at once is right
either way, since both readings use the same tokens.
-/

namespace Plainspoken

namespace Syntax

open Form Rule

/-! ## Tokens that expressions do not stop at -/

def operandStop : List TokenKind :=
  [.mark .doubleQuestion]

def multiplicationStop : List TokenKind :=
  operandStop ++ Grammar.multiplications.map Prod.fst

def additionStop : List TokenKind :=
  multiplicationStop ++ Grammar.additions.map Prod.fst

def relationStop : List TokenKind :=
  additionStop ++ Grammar.relations.map Prod.fst

def equalityStop : List TokenKind :=
  relationStop ++ Grammar.equalities.map Prod.fst

def conjunctionStop : List TokenKind :=
  equalityStop ++ Grammar.conjunctions.map Prod.fst

def disjunctionStop : List TokenKind :=
  conjunctionStop ++ Grammar.disjunctions.map Prod.fst

def ternaryStop : List TokenKind :=
  disjunctionStop ++ [.mark .colon, .mark .question]

def pipeStop : List TokenKind :=
  ternaryStop ++ [.keyword .otherwiseWord, .keyword .thenWord]

def expressionStop : List TokenKind :=
  pipeStop ++ [.keyword .isWord]

variable {span : Span} {bound fuel : Nat}

/-! ## Operands -/

section Operands

variable {nested : Grammar.ExpressionRule}
  (recognizes : Recognizes span bound nested (.symbol .expression) expressionStop)
  (enough : bound < fuel)

include recognizes enough in
theorem callArguments_reads :
    Reads span bound Anything (Grammar.callArguments fuel nested)
      (optional [word .withWord, listed (.symbol .expression) (mark .comma)])
      (expressionStop ++ [.mark .comma, .keyword .withWord]) := by
  have further : Recognizes span bound (Grammar.furtherArgument nested)
      (inOrder [mark .comma, .symbol .expression]) expressionStop :=
    .acceptWithin (by decide) rfl
      (.bind (.require recognizes) (by decide) fun _ _ => .pure ⟨_, rfl⟩)
  have others := Reads.many further (by decide) (by decide) (Nat.le_of_lt enough)
  refine Reads.branch (by decide) ?_ (.pure trivial) (by decide)
  refine Reads.only (Reads.bind (.require recognizes) (by decide) fun _ _ => ?_)
  exact .bind others (by decide) fun _ _ => .pure trivial

include recognizes enough in
theorem callFrom_reads (place : Span) :
    Reads span bound Anything (Grammar.callFrom fuel nested place)
      (inOrder [.token .identifier,
        optional [word .withWord, listed (.symbol .expression) (mark .comma)],
        word .nowWord]) [] :=
  .bind .identifier (by decide) fun _ _ =>
    .bind (callArguments_reads recognizes enough) (by decide) fun _ _ =>
      .bind (.expect (by decide)) (by decide) fun _ _ => .pure trivial

include recognizes in
theorem parenthesised_reads :
    Reads span bound Anything (Grammar.parenthesised nested)
      (inOrder [.symbol .expression, mark .closeParenthesis]) [] :=
  .bind (.require recognizes) (by decide) fun _ _ =>
    .bind (.expect (by decide)) (by decide) fun _ _ => .pure trivial

/-- The form of a literal, an identifier, a parenthesised expression or a call. -/
def operandForm : Form :=
  oneOf [.symbol .literal, .token .identifier,
    inOrder [mark .openParenthesis, .symbol .expression, mark .closeParenthesis],
    .symbol .call]

theorem primary_declines {tokens : List Token} (other : nextKind tokens ∉ operandStarts) :
    Grammar.primary fuel nested (.endOfSource span) tokens = .ok (none, tokens) := by
  cases tokens with
  | nil => rfl
  | cons token tokens =>
      obtain ⟨lexeme, place⟩ := token
      rw [nextKind_cons] at other
      cases lexeme with
      | endOfSource => rfl
      | lineBreak => rfl
      | comment content => rfl
      | number amount => exact absurd (by decide : TokenKind.number ∈ operandStarts) other
      | text content => exact absurd (by decide : TokenKind.text ∈ operandStarts) other
      | fact holds => exact absurd (by decide : TokenKind.fact ∈ operandStarts) other
      | identifier name => exact absurd (by decide : TokenKind.identifier ∈ operandStarts) other
      | mark symbol =>
          cases symbol with
          | openParenthesis =>
              exact absurd
                (by decide : TokenKind.mark .openParenthesis ∈ operandStarts) other
          | _ => rfl
      | keyword word =>
          cases word with
          | noneWord =>
              exact absurd (by decide : TokenKind.keyword .noneWord ∈ operandStarts) other
          | callWord =>
              exact absurd (by decide : TokenKind.keyword .callWord ∈ operandStarts) other
          | _ => rfl

theorem primary_literal {token : Token} (isLiteral : token.kind ∈ literalStarts)
    (rest : List Token) :
    ∃ value, Grammar.primary fuel nested (.endOfSource span) (token :: rest) =
      .ok (some value, rest) := by
  obtain ⟨lexeme, place⟩ := token
  cases lexeme with
  | number amount => exact ⟨_, rfl⟩
  | text content => exact ⟨_, rfl⟩
  | fact holds => exact ⟨_, rfl⟩
  | keyword word =>
      have isNone : word = .noneWord := by
        simpa [literalStarts, Token.kind, Lexeme.kind] using isLiteral
      subst isNone
      exact ⟨_, rfl⟩
  | _ => simp [literalStarts, Token.kind, Lexeme.kind] at isLiteral

theorem primary_identifier {token : Token} (isIdentifier : token.kind = .identifier)
    (rest : List Token) :
    ∃ name, Grammar.primary fuel nested (.endOfSource span) (token :: rest) =
      .ok (some name, rest) := by
  obtain ⟨lexeme, place⟩ := token
  cases lexeme with
  | identifier name => exact ⟨_, rfl⟩
  | _ => cases isIdentifier

theorem primary_parenthesis {token : Token} (opens : token.kind = .mark .openParenthesis)
    (rest : List Token) :
    Grammar.primary fuel nested (.endOfSource span) (token :: rest) =
      (Grammar.parenthesised nested >>= fun inner => pure (some inner)) (.endOfSource span)
        rest := by
  obtain ⟨lexeme, place⟩ := token
  cases lexeme with
  | mark symbol =>
      cases opens
      rfl
  | _ => cases opens

theorem primary_call {token : Token} (calls : token.kind = .keyword .callWord)
    (rest : List Token) :
    Grammar.primary fuel nested (.endOfSource span) (token :: rest) =
      (Grammar.callFrom fuel nested token.span >>= fun call => pure (some call))
        (.endOfSource span) rest := by
  obtain ⟨lexeme, place⟩ := token
  cases lexeme with
  | keyword word =>
      cases calls
      rfl
  | _ => cases calls

theorem derives_literal_iff {tokens : List Token} :
    Derives (.symbol .literal) tokens ↔
      ∃ token : Token, tokens = [token] ∧ token.kind ∈ literalStarts := by
  rw [derives_symbol_iff]
  exact @derives_oneOf_tokens_iff tokens literalStarts

include recognizes enough in
theorem primary_recognizes :
    Recognizes span (bound + 1) (Grammar.primary fuel nested) operandForm [] where
  complete {used rest} derived stops short := by
    simp only [operandForm, derives_oneOf_cons_iff, not_derives_never, or_false] at derived
    rcases derived with literal | identifier | inner | call
    · obtain ⟨token, rfl, isLiteral⟩ := derives_literal_iff.mp literal
      obtain ⟨value, read⟩ := primary_literal isLiteral rest
      exact ⟨some value, ⟨value, rfl⟩, read⟩
    · obtain ⟨token, rfl, isIdentifier⟩ := derives_token_iff.mp identifier
      obtain ⟨name, read⟩ := primary_identifier isIdentifier rest
      exact ⟨some name, ⟨name, rfl⟩, read⟩
    · obtain ⟨token, after, rfl, opens, afterDerived⟩ := derives_token_cons_iff.mp inner
      have shorter : (after ++ rest).length < bound := Nat.lt_of_succ_lt_succ short
      obtain ⟨inner, -, read⟩ :=
        (parenthesised_reads recognizes).complete afterDerived stops shorter
      exact ⟨some inner, ⟨inner, rfl⟩, (primary_parenthesis opens _).trans (bind_of_ok read)⟩
    · rw [derives_symbol_iff] at call
      obtain ⟨token, after, rfl, calls, afterDerived⟩ := derives_token_cons_iff.mp call
      have shorter : (after ++ rest).length < bound := Nat.lt_of_succ_lt_succ short
      obtain ⟨call, -, read⟩ :=
        (callFrom_reads recognizes enough token.span).complete afterDerived stops shorter
      exact ⟨some call, ⟨call, rfl⟩, (primary_call calls _).trans (bind_of_ok read)⟩
  sound {tokens rest result} read := by
    by_cases applies : nextKind tokens ∈ operandStarts
    · right
      cases tokens with
      | nil => exact absurd applies (by decide)
      | cons token tokens =>
          have operand : token.kind ∈ literalStarts ∨ token.kind = .identifier ∨
              token.kind = .mark .openParenthesis ∨ token.kind = .keyword .callWord := by
            simpa [operandStarts] using applies
          rcases operand with literal | identifier | opens | calls
          · obtain ⟨value, reads⟩ := primary_literal literal tokens
            cases reads.symm.trans read
            exact ⟨⟨value, rfl⟩, [token], rfl,
              .left (derives_literal_iff.mpr ⟨token, rfl, literal⟩)⟩
          · obtain ⟨name, reads⟩ := primary_identifier identifier tokens
            cases reads.symm.trans read
            exact ⟨⟨name, rfl⟩, [token], rfl, .right (.left (.token identifier))⟩
          · rw [primary_parenthesis opens, bind_ok_iff] at read
            obtain ⟨inner, between, innerRead, ended⟩ := read
            obtain ⟨rfl, rfl⟩ := pure_ok_iff.mp ended
            obtain ⟨-, used, rfl, derived⟩ := (parenthesised_reads recognizes).sound innerRead
            exact ⟨⟨inner, rfl⟩, token :: used, rfl,
              .right (.right (.left (.both (.token opens) derived)))⟩
          · rw [primary_call calls, bind_ok_iff] at read
            obtain ⟨call, between, callRead, ended⟩ := read
            obtain ⟨rfl, rfl⟩ := pure_ok_iff.mp ended
            obtain ⟨-, used, rfl, derived⟩ :=
              (callFrom_reads recognizes enough token.span).sound callRead
            exact ⟨⟨call, rfl⟩, token :: used, rfl,
              .right (.right (.right (.left (.symbol (.both (.token calls) derived)))))⟩
    · rw [primary_declines applies] at read
      cases read
      exact .inl ⟨rfl, rfl⟩
  declines other := primary_declines other

include recognizes enough in
theorem noneTest_recognizes :
    Recognizes span (bound + 1) (Grammar.noneTest fuel nested) (.symbol .noneTest) operandStop := by
  refine .symbol (.position fun place => ?_)
  refine .bind (primary_recognizes recognizes enough) (by decide) rfl fun operand => ?_
  exact .only (.branch (by decide) (.pure ⟨_, rfl⟩) (.pure ⟨_, rfl⟩) (by decide))

/-- The tokens that may stand in front of an operand. -/
def signs : List TokenKind :=
  [.mark .minus, .keyword .notWord]

theorem unaryOperator?_isSome (lexeme : Lexeme) :
    (Grammar.unaryOperator? lexeme).isSome = true ↔ lexeme.kind ∈ signs := by
  cases lexeme with
  | mark symbol => cases symbol <;> decide
  | keyword word => cases word <;> decide
  | _ => simp [Grammar.unaryOperator?, Lexeme.kind, signs]

private theorem unary_of_sign {token : Token} (isSign : token.kind ∈ signs) (rest : List Token) :
    ∃ operator, Grammar.unary fuel nested (.endOfSource span) (token :: rest) =
      (require .expression (Grammar.noneTest fuel nested) >>= fun operand =>
        pure (some (.unary token.span operator operand))) (.endOfSource span) rest := by
  obtain ⟨operator, found⟩ :=
    Option.isSome_iff_exists.mp ((unaryOperator?_isSome token.lexeme).mpr isSign)
  refine ⟨operator, ?_⟩
  unfold Grammar.unary
  rw [bind_of_ok (current_eq _)]
  simp only [List.headD_cons, found]
  rfl

theorem unary_of_other {tokens : List Token} (other : nextKind tokens ∉ signs) :
    Grammar.unary fuel nested (.endOfSource span) tokens =
      Grammar.noneTest fuel nested (.endOfSource span) tokens := by
  have unsigned : Grammar.unaryOperator?
      (tokens.headD (endToken (.endOfSource span))).lexeme = none := by
    rw [← Option.not_isSome_iff_eq_none, unaryOperator?_isSome]
    exact fun isSign => other (@kind_headD span tokens ▸ isSign)
  unfold Grammar.unary
  rw [bind_of_ok (current_eq _)]
  simp only [unsigned]

include recognizes enough in
theorem unary_recognizes :
    Recognizes span (bound + 1) (Grammar.unary fuel nested) (.symbol .unary) operandStop := by
  have operand := noneTest_recognizes recognizes enough
  refine .symbol ⟨⟨?_⟩, ?_, ?_⟩
  · intro used rest derived stops short
    obtain ⟨before, after, rfl, signDerived, afterDerived⟩ := derives_cons_iff.mp derived
    have operandDerived := derives_only_iff.mp afterDerived
    rcases derives_optional_iff.mp signDerived with sign | rfl
    · obtain ⟨token, rfl, isSign⟩ :=
        (@derives_oneOf_tokens_iff before signs).mp (derives_only_iff.mp sign)
      have shorter : (after ++ rest).length < bound + 1 := Nat.lt_of_succ_lt short
      obtain ⟨operator, eq⟩ := unary_of_sign isSign (after ++ rest)
      obtain ⟨inner, -, read⟩ := (Reads.require operand).complete operandDerived stops shorter
      exact ⟨_, ⟨_, rfl⟩, eq.trans (bind_of_ok read)⟩
    · have solid := operandDerived.nonempty (by decide)
      have unsigned : nextKind (after ++ rest) ∉ signs := by
        rw [nextKind_append solid]
        have first := operandDerived.nextKind_mem solid
        revert first
        exact (by decide : ∀ kind ∈ operandStarts, kind ∉ signs) _
      rw [List.nil_append, unary_of_other unsigned]
      exact operand.complete operandDerived stops short
  · intro tokens rest result read
    by_cases signed : nextKind tokens ∈ signs
    · right
      cases tokens with
      | nil => exact absurd signed (by decide)
      | cons token tokens =>
          obtain ⟨operator, eq⟩ := unary_of_sign signed tokens
          rw [eq, bind_ok_iff] at read
          obtain ⟨inner, between, innerRead, ended⟩ := read
          obtain ⟨rfl, rfl⟩ := pure_ok_iff.mp ended
          obtain ⟨-, used, rfl, derived⟩ := (Reads.require operand).sound innerRead
          have sign : Derives (oneOf (signs.map .token)) [token] :=
            derives_oneOf_tokens_iff.mpr ⟨token, rfl, signed⟩
          exact ⟨⟨_, rfl⟩, token :: used, rfl,
            .both (.left (derives_only_iff.mpr sign)) (derives_only_iff.mpr derived)⟩
    · rw [unary_of_other signed] at read
      rcases operand.sound read with declined | ⟨found, used, split, derived⟩
      · exact .inl declined
      · exact .inr ⟨found, used, split,
          .both (.right .nothing) (derives_only_iff.mpr derived)⟩
  · intro tokens other
    have unsigned : nextKind tokens ∉ signs := fun isSign =>
      other (List.mem_append_left _ isSign)
    rw [unary_of_other unsigned]
    exact operand.declines fun first => other (List.mem_append_right _ first)

end Operands

/-! ## Binary operators -/

section Binary

variable {operand : Grammar.ExpressionRule} {form : Form} {stop : List TokenKind}

def operators (table : Grammar.OperatorTable) : Form :=
  oneOf ((table.map Prod.fst).map .token)

theorem firsts_operators (table : Grammar.OperatorTable) :
    firsts (operators table) = table.map Prod.fst :=
  firsts_oneOf_tokens _

theorem lookup_isSome_iff {table : Grammar.OperatorTable} {kind : TokenKind} :
    (table.lookup kind).isSome = true ↔ kind ∈ table.map Prod.fst := by
  rw [List.lookup_isSome_iff, List.mem_map]
  simp only [beq_iff_eq]
  exact exists_congr fun entry => and_congr_right fun _ => eq_comm

theorem operatorAndOperand_recognizes (recognizes : Recognizes span bound operand form stop)
    {table : Grammar.OperatorTable} (inside : TokenKind.endOfSource ∉ table.map Prod.fst) :
    Recognizes span bound (Grammar.operatorAndOperand table operand)
      (inOrder [operators table, form]) stop := by
  have selected : Recognizes span (bound + 1) (Grammar.operatorAndOperand table operand)
      (inOrder [operators table, form]) stop := by
    refine .select (fun token => table.lookup token.kind)
      (fun operator => require .expression operand >>= fun right => pure (some (operator, right)))
      (fun tokens => ?_) (fun _ => lookup_isSome_iff) inside fun operator => ?_
    · unfold Grammar.operatorAndOperand
      rw [bind_of_ok (current_eq tokens)]
      cases table.lookup (tokens.headD (endToken (.endOfSource span))).kind <;> rfl
    · exact .bind (.require recognizes) .last fun _ _ => .pure ⟨_, rfl⟩
  exact selected.weaken (Nat.le_succ bound) (List.Subset.refl stop)

/-- One level of binary operators. -/
theorem binaryLevel_recognizes (recognizes : Recognizes span bound operand form stop)
    (table : Grammar.OperatorTable) (inside : TokenKind.endOfSource ∉ table.map Prod.fst)
    (apart : ∀ kind ∈ table.map Prod.fst, kind ∉ stop) (enough : bound ≤ fuel) :
    Recognizes span bound (Grammar.binaryLevel fuel operand table)
      (listed form (operators table)) (stop ++ table.map Prod.fst) := by
  have part := operatorAndOperand_recognizes recognizes inside
  have solid : nullable (operators table) = false := nullable_oneOf_tokens _
  have partFirsts : firsts (inOrder [operators table, form]) = table.map Prod.fst := by
    change firsts (operators table) ++ (if nullable (operators table) then _ else []) = _
    rw [solid, firsts_operators]
    simp
  have parts := Reads.many part (by simp [inOrder, nullable, solid])
    (by rw [partFirsts]; exact apart) enough
  rw [partFirsts] at parts
  have onlyParts : Apart stop (inOrder [.repeated (inOrder [operators table, form])])
      (stop ++ table.map Prod.fst) := by
    refine ⟨?_, fun _ => List.subset_append_left _ _⟩
    intro kind isFirst
    have isOperator : kind ∈ table.map Prod.fst := by
      rw [← partFirsts]
      simpa [inOrder, firsts, nullable] using isFirst
    exact apart kind isOperator
  refine .bind recognizes onlyParts rfl fun first => ?_
  exact .bind parts ⟨by simp [inOrder, firsts], fun _ => List.Subset.refl _⟩ fun _ _ =>
    .pure ⟨_, rfl⟩

end Binary

/-! ## Chains of parts -/

section Chains

variable {nested : Grammar.ExpressionRule}
  (recognizes : Recognizes span bound nested (.symbol .expression) expressionStop)
  (enough : bound < fuel)

include recognizes enough in
theorem binary_recognizes :
    Recognizes span (bound + 1) (Grammar.binary fuel nested) (.symbol .disjunction)
      disjunctionStop := by
  have multiplication : Recognizes span (bound + 1) _ (.symbol .multiplication) multiplicationStop :=
    .symbol (binaryLevel_recognizes (unary_recognizes recognizes enough) Grammar.multiplications
      (by decide) (by decide) enough)
  have addition : Recognizes span (bound + 1) _ (.symbol .addition) additionStop :=
    .symbol (binaryLevel_recognizes multiplication Grammar.additions (by decide) (by decide)
      enough)
  have relation : Recognizes span (bound + 1) _ (.symbol .relation) relationStop :=
    .symbol (binaryLevel_recognizes addition Grammar.relations (by decide) (by decide) enough)
  have equality : Recognizes span (bound + 1) _ (.symbol .equality) equalityStop :=
    .symbol (binaryLevel_recognizes relation Grammar.equalities (by decide) (by decide) enough)
  have conjunction : Recognizes span (bound + 1) _ (.symbol .conjunction) conjunctionStop :=
    .symbol (binaryLevel_recognizes equality Grammar.conjunctions (by decide) (by decide)
      enough)
  exact .symbol (binaryLevel_recognizes conjunction Grammar.disjunctions (by decide)
    (by decide) enough)

def ternaryPartForm : Form :=
  inOrder [mark .question, .symbol .disjunction, optional [mark .colon, .symbol .disjunction]]

include recognizes enough in
theorem ternaryPart_recognizes :
    Recognizes span (bound + 1) (Grammar.ternaryPart fuel nested) ternaryPartForm
      (disjunctionStop ++ [.mark .colon]) := by
  have operand := binary_recognizes recognizes enough
  refine .acceptWithin (by decide) rfl (.bind (.require operand) (by decide) fun _ _ => ?_)
  refine .only (.branch (by decide) ?_ (.pure ⟨_, rfl⟩) (by decide))
  exact .bind (.require operand) (by decide) fun _ _ => .pure ⟨_, rfl⟩

include recognizes enough in
theorem ternary_recognizes :
    Recognizes span (bound + 1) (Grammar.ternary fuel nested) (.symbol .ternary) ternaryStop := by
  have parts := Reads.many (ternaryPart_recognizes recognizes enough) (by decide) (by decide)
    enough
  refine .symbol (.bind (binary_recognizes recognizes enough) (by decide) rfl fun _ => ?_)
  exact .bind parts (by decide) fun _ _ => .pure ⟨_, rfl⟩

def pipePartForm : Form :=
  oneOf
    [inOrder [word .thenWord, .symbol .ternary, optional [word .otherwiseWord, .symbol .ternary]],
      inOrder [word .otherwiseWord, .symbol .ternary]]

include recognizes enough in
theorem pipePart_recognizes :
    Recognizes span (bound + 1) (Grammar.pipePart fuel nested) pipePartForm
      (ternaryStop ++ [.keyword .otherwiseWord]) := by
  have operand := ternary_recognizes recognizes enough
  refine .choose (by decide) ?_ ?_ (by decide)
  · refine .bind (.require operand) (by decide) fun _ _ => ?_
    refine .only (.branch (by decide) ?_ (.pure ⟨_, rfl⟩) (by decide))
    exact .bind (.require operand) (by decide) fun _ _ => .pure ⟨_, rfl⟩
  · refine .choose (by decide) ?_ .none (by decide)
    exact .bind (.require operand) (by decide) fun _ _ => .pure ⟨_, rfl⟩

/-- The form of the parts of a pipe that end with what `OTHERWISE` introduces. -/
def settledPartForm : Form :=
  .either (inOrder [word .thenWord, .symbol .ternary, word .otherwiseWord, .symbol .ternary])
    (inOrder [word .otherwiseWord, .symbol .ternary])

theorem settled_or_open {used : List Token} (derived : Derives pipePartForm used) :
    Derives settledPartForm used ∨ Derives (inOrder [word .thenWord, .symbol .ternary]) used := by
  simp only [pipePartForm, derives_oneOf_cons_iff, not_derives_never, or_false] at derived
  rcases derived with derived | derived
  · obtain ⟨opening, parts, rfl, opens, partsDerived⟩ := derives_token_cons_iff.mp derived
    obtain ⟨success, parts, rfl, successDerived, partsDerived⟩ :=
      derives_cons_iff.mp partsDerived
    rcases derives_optional_iff.mp (derives_only_iff.mp partsDerived) with failure | rfl
    · exact .inl (.left (.both (.token opens) (.both successDerived failure)))
    · exact .inr (.both (.token opens) (.both successDerived .nothing))
  · exact .inl (.right derived)

theorem settle {before after : List Token}
    (unsettled : Derives (inOrder [word .thenWord, .symbol .ternary]) before)
    (next : Derives pipePartForm after) (continues : nextKind after = .keyword .otherwiseWord) :
    Derives settledPartForm (before ++ after) := by
  simp only [pipePartForm, derives_oneOf_cons_iff, not_derives_never, or_false] at next
  rcases next with next | next
  · obtain ⟨opening, parts, rfl, opens, -⟩ := derives_token_cons_iff.mp next
    rw [nextKind_cons, opens] at continues
    cases continues
  · obtain ⟨opening, success, rfl, opens, successDerived⟩ :=
      derives_token_cons_iff.mp unsettled
    rw [derives_only_iff] at successDerived
    exact .left (derives_token_cons_iff.mpr
      ⟨opening, success ++ after, rfl, opens, .both successDerived next⟩)

include recognizes enough in
/-- A part that ends with what `OTHERWISE` introduces may be followed by another
one that begins with it. -/
theorem pipePart_completes :
    Completes span (bound + 1) Something (Grammar.pipePart fuel nested) settledPartForm
      ternaryStop := by
  have operand : Completes span (bound + 1) Anything
      (require .expression (Grammar.ternary fuel nested)) (.symbol .ternary) ternaryStop :=
    (ternary_recognizes recognizes enough).toCompletes.require
  refine .either (.acceptWithin (.bind operand (by decide) fun _ _ => .acceptWithin ?_))
    (.pass (.acceptWithin ?_) (by decide))
  · exact .bind operand (by decide) fun _ _ => (Reads.pure ⟨_, rfl⟩).toCompletes
  · exact .bind operand (by decide) fun _ _ => (Reads.pure ⟨_, rfl⟩).toCompletes

/-- Parts of a pipe can be divided so that no `OTHERWISE` is left to a part of
its own that the part before it could have taken. -/
theorem divide_pipeParts {used : List Token} (derived : Derives (.repeated pipePartForm) used)
    (nonempty : used ≠ []) :
    ∃ before after, used = before ++ after ∧ Derives (.repeated pipePartForm) after ∧
      (Derives settledPartForm before ∨
        Derives pipePartForm before ∧ nextKind after ≠ .keyword .otherwiseWord) := by
  rcases derives_repeated_iff.mp derived with rfl | ⟨before, after, rfl, once, more⟩
  · exact absurd rfl nonempty
  rcases settled_or_open once with settled | unsettled
  · exact ⟨before, after, rfl, more, .inl settled⟩
  by_cases continues : nextKind after = .keyword .otherwiseWord
  · rcases derives_repeated_iff.mp more with rfl | ⟨next, others, rfl, nextDerived, more⟩
    · cases continues
    -- The next part is nothing but the `OTHERWISE` that this part can take.
    rw [nextKind_append (nextDerived.nonempty (by decide))] at continues
    exact ⟨before ++ next, others, (List.append_assoc _ _ _).symm, more,
      .inl (settle unsettled nextDerived continues)⟩
  · exact ⟨before, after, rfl, more, .inr ⟨once, continues⟩⟩

include recognizes enough in
theorem pipeParts_reads :
    Reads span (bound + 1) Anything (many fuel (Grammar.pipePart fuel nested))
      (.repeated pipePartForm) pipeStop where
  complete {used rest} derived stops short := by
    have part := pipePart_recognizes recognizes enough
    have settledPart := pipePart_completes recognizes enough
    have other : nextKind rest ∉ firsts pipePartForm := fun first =>
      stops ((by decide : firsts pipePartForm ⊆ pipeStop) first)
    have apart : Apart ternaryStop (.repeated pipePartForm) pipeStop := by decide
    have repeats : ∃ parts, many fuel (Grammar.pipePart fuel nested) (.endOfSource span)
        (used ++ rest) = .ok (parts, rest) := by
      refine many_complete (part.declines other) ?_ derived short (by omega)
      intro used derived nonempty short
      obtain ⟨before, after, rfl, more, form⟩ := divide_pipeParts derived nonempty
      rw [List.append_assoc] at short
      have stopped := apart.stops more stops
      rcases form with settled | ⟨once, continues⟩
      · obtain ⟨_, ⟨result, rfl⟩, read⟩ := settledPart.complete settled stopped short
        exact ⟨before, after, result, rfl, settled.nonempty (by decide), more, read⟩
      · have ended : nextKind (after ++ rest) ≠ .keyword .otherwiseWord := by
          by_cases isEmpty : after = []
          · subst isEmpty
            exact fun same => stops (same ▸ (by decide))
          · rwa [nextKind_append isEmpty]
        have next : nextKind (after ++ rest) ∉ ternaryStop ++ [.keyword .otherwiseWord] := by
          simp [stopped, ended]
        obtain ⟨_, ⟨result, rfl⟩, read⟩ := part.complete once next short
        exact ⟨before, after, result, rfl, once.nonempty (by decide), more, read⟩
    obtain ⟨parts, read⟩ := repeats
    exact ⟨parts, trivial, read⟩
  sound read := ⟨trivial, many_sound (pipePart_recognizes recognizes enough) read⟩

include recognizes enough in
theorem pipe_recognizes :
    Recognizes span (bound + 1) (Grammar.pipe fuel nested) (.symbol .pipe) pipeStop := by
  refine .symbol (.bind (ternary_recognizes recognizes enough) (by decide) rfl fun _ => ?_)
  exact .bind (pipeParts_reads recognizes enough) (by decide) fun _ _ => .pure ⟨_, rfl⟩

include recognizes enough in
theorem assignment_recognizes :
    Recognizes span (bound + 1) (Grammar.assignment fuel nested) (.symbol .assignment)
      expressionStop := by
  have operand := pipe_recognizes recognizes enough
  have part : Recognizes span (bound + 1) (Grammar.assignedPart fuel nested)
      (inOrder [word .isWord, .symbol .pipe]) pipeStop :=
    .acceptWithin (by decide) rfl (.bind (.require operand) (by decide) fun _ _ => .pure ⟨_, rfl⟩)
  have parts := Reads.many part (by decide) (by decide) enough
  refine .symbol (.bind operand (by decide) rfl fun _ => ?_)
  exact .bind parts (by decide) fun _ _ => .pure ⟨_, rfl⟩

end Chains

/-- The rule for expressions reads all of them that have fewer tokens than it has
fuel. -/
theorem expression_recognizes (span : Span) (fuel : Nat) :
    Recognizes span fuel (Grammar.expression fuel) (.symbol .expression) expressionStop := by
  induction fuel with
  | zero => exact .exhausted
  | succ fuel ih => exact .symbol (assignment_recognizes ih (Nat.lt_succ_self fuel))

end Syntax

end Plainspoken
