import Plainspoken.Proofs.Syntax.Declarations

/-!
# Reading statements

The rules for statements recognise their forms.  The one choice that the next
token does not settle is `ELSE` behind a statement, which may belong to the
statement or to a conditional around it.  Of the tokens of a statement, however,
one of two things is true: they are closed, which means that the rule for
statements stops behind them even before `ELSE`, or they are open, which means
that with `ELSE` and another statement behind them they are a statement again.
So a conditional whose first branch is open, and whose own `ELSE` that branch
takes for itself, is read in another way than it was derived, but it is read.
-/

namespace Plainspoken

namespace Syntax

open Form Rule

variable {α β : Type} {span : Span} {bound fuel : Nat} {form form' : Form} {forms : List Form}
  {stop stop' : List TokenKind} {good : α → Prop} {good' : β → Prop}

/-! ## Closed and open statements -/

/-- The form of some of the tokens that another form derives. -/
def Form.exactly (form : Form) (used : List Token) : Form :=
  .checked (· == used) form

theorem derives_exactly_iff {used tokens : List Token} :
    Derives (form.exactly used) tokens ↔ tokens = used ∧ Derives form used := by
  constructor
  · intro derived
    cases derived with
    | checked derived passed =>
        obtain rfl := eq_of_beq passed
        exact ⟨rfl, derived⟩
  · rintro ⟨rfl, derived⟩
    exact .checked derived (beq_self_eq_true tokens)

theorem Completes.exactly {rule : Rule α} {used : List Token}
    (completes : Completes span bound good rule form stop) (derived : Derives form used) :
    Completes span bound good rule (form'.exactly used) stop :=
  completes.congr fun exact => (derives_exactly_iff.mp exact).1 ▸ derived

/-- The tokens may be followed by `ELSE` and a statement. -/
def Open (form : Form) (used : List Token) : Prop :=
  ∀ ⦃token : Token⦄ ⦃other : List Token⦄, token.kind = .keyword .elseWord →
    Derives (.symbol .statement) other → Derives form (used ++ token :: other)

/-- Whatever the form derives is closed or open. -/
def Settled (span : Span) (bound : Nat) (good : α → Prop) (rule : Rule α) (form : Form) : Prop :=
  ∀ ⦃used : List Token⦄, Derives form used →
    Completes span bound good rule (form.exactly used) [] ∨ Open form used

namespace Settled

theorem of_completes {rule : Rule α} (completes : Completes span bound good rule form []) :
    Settled span bound good rule form :=
  fun _ derived => .inl (completes.exactly derived)

theorem congr {rule : Rule α} (settled : Settled span bound good rule form)
    (same : ∀ {tokens}, Derives form tokens ↔ Derives form' tokens) :
    Settled span bound good rule form' := by
  intro used derived
  rcases settled (same.mpr derived) with closed | isOpen
  · exact .inl (closed.exactly (derives_exactly_iff.mpr ⟨rfl, same.mpr derived⟩))
  · exact .inr fun token other isElse otherDerived => same.mp (isOpen isElse otherDerived)

theorem weaken {rule : Rule α} {larger : Nat} (settled : Settled span larger good rule form)
    (enough : bound ≤ larger) : Settled span bound good rule form :=
  fun _ derived =>
    (settled derived).imp_left fun closed => closed.weaken enough (List.Subset.refl [])

theorem position {next : Span → Rule α}
    (settled : ∀ place, Settled span bound good (next place) form) :
    Settled span bound good (position >>= next) form := by
  intro used derived
  by_cases isOpen : Open form used
  · exact .inr isOpen
  · exact .inl (.position fun place => (settled place derived).resolve_right isOpen)

theorem require {rule : Rule (Option α)} {symbol : Symbol}
    (settled : Settled span bound Something rule form) :
    Settled span bound Anything (require symbol rule) form :=
  fun _ derived => (settled derived).imp_left fun closed => closed.require

theorem bind {first : Rule α} {second : α → Rule β}
    (left : Completes span bound good first form stop)
    (apart : Apart stop (inOrder forms) [])
    (right : ∀ result, good result → Settled span bound good' (second result) (inOrder forms)) :
    Settled span bound good' (first >>= second) (inOrder (form :: forms)) := by
  intro used derived
  obtain ⟨before, after, rfl, beforeDerived, afterDerived⟩ := derives_cons_iff.mp derived
  -- Whether the rest is open does not depend on the result of the first rule.
  by_cases isOpen : Open (inOrder forms) after
  · right
    intro token other isElse otherDerived
    rw [List.append_assoc]
    exact .both beforeDerived (isOpen isElse otherDerived)
  · left
    have closed (result : α) (isGood : good result) :=
      (right result isGood afterDerived).resolve_right isOpen
    have apart' : Apart stop (inOrder [(inOrder forms).exactly after]) [] := by
      refine ⟨fun kind isFirst => apart.begins kind ?_, fun isNullable => apart.through ?_⟩
      · simpa [inOrder, firsts, Form.exactly] using isFirst
      · simpa [inOrder, nullable, Form.exactly] using isNullable
    have joined := left.bind apart' fun result isGood => (closed result isGood).only
    exact joined.exactly (.both beforeDerived
      (derives_only_iff.mpr (derives_exactly_iff.mpr ⟨rfl, afterDerived⟩)))

/-- A rule and what is made of its result. -/
theorem last {first : Rule α} {second : α → Rule β} (settled : Settled span bound good first form)
    (right : ∀ result, good result →
      Reads span bound good' (second result) (inOrder []) []) :
    Settled span bound good' (first >>= second) (inOrder [form]) := by
  intro used derived
  have formDerived := derives_only_iff.mp derived
  rcases settled formDerived with closed | isOpen
  · left
    have joined := closed.bind .last fun result isGood => (right result isGood).toCompletes
    exact joined.exactly
      (derives_only_iff.mpr (derives_exactly_iff.mpr ⟨rfl, formDerived⟩))
  · right
    intro token other isElse otherDerived
    exact derives_only_iff.mpr (isOpen isElse otherDerived)

theorem accept {kind : TokenKind} {next : Bool → Rule α}
    (present : Settled span bound good (next true) (inOrder forms)) :
    Settled span (bound + 1) good (accept kind >>= next) (inOrder (.token kind :: forms)) := by
  intro used derived
  obtain ⟨opening, after, rfl, opens, afterDerived⟩ := derives_token_cons_iff.mp derived
  rcases present afterDerived with closed | isOpen
  · left
    exact closed.only.accept.exactly (.both (.token opens)
      (derives_only_iff.mpr (derives_exactly_iff.mpr ⟨rfl, afterDerived⟩)))
  · right
    intro token other isElse otherDerived
    exact derives_token_cons_iff.mpr
      ⟨opening, after ++ token :: other, rfl, opens, isOpen isElse otherDerived⟩

end Settled

/-- A rule for some of the statements. -/
structure Alternative (span : Span) (bound : Nat) (rule : Grammar.StatementRule) (form : Form) :
    Prop extends Recognizes span bound rule form [.keyword .elseWord] where
  settled : Settled span bound Something rule form

namespace Alternative

variable {rule : Grammar.StatementRule} {rules : List Grammar.StatementRule}

/-- A rule for statements that stop even before `ELSE`. -/
theorem of_recognizes (recognizes : Recognizes span bound rule form []) :
    Alternative span bound rule form where
  toRecognizes := recognizes.weaken (Nat.le_refl bound) (List.nil_subset _)
  settled := .of_completes recognizes.toCompletes

theorem symbol {nonterminal : Nonterminal}
    (alternative : Alternative span bound rule (Syntax.rule nonterminal)) :
    Alternative span bound rule (.symbol nonterminal) where
  toRecognizes := alternative.toRecognizes.symbol
  settled := alternative.settled.congr derives_symbol_iff.symm

theorem weaken {larger : Nat} (alternative : Alternative span larger rule form)
    (enough : bound ≤ larger) : Alternative span bound rule form where
  toRecognizes := alternative.toRecognizes.weaken enough (List.Subset.refl _)
  settled := alternative.settled.weaken enough

theorem firstApplicable (alternative : Alternative span bound rule form)
    (others : Alternative span bound (firstApplicable rules) (oneOf forms))
    (solid : nullable (oneOf forms) = false)
    (apart : ∀ kind ∈ firsts (oneOf forms), kind ∉ firsts form) :
    Alternative span bound (Rule.firstApplicable (rule :: rules)) (oneOf (form :: forms)) where
  toRecognizes := .firstApplicable alternative.toRecognizes others.toRecognizes solid apart
  settled := by
    intro used derived
    rcases derives_oneOf_cons_iff.mp derived with derived | derived
    · rcases alternative.settled derived with closed | isOpen
      · exact .inl (closed.first.exactly (derives_exactly_iff.mpr ⟨rfl, derived⟩))
      · exact .inr fun token other isElse otherDerived => .left (isOpen isElse otherDerived)
    · rcases others.settled derived with closed | isOpen
      · have later := Completes.later alternative.toRecognizes closed solid apart
        exact .inl (later.exactly (derives_exactly_iff.mpr ⟨rfl, derived⟩))
      · exact .inr fun token other isElse otherDerived => .right (isOpen isElse otherDerived)

end Alternative

/-! ## Statements that contain statements -/

section Nested

variable {nested : Grammar.StatementRule}
  (alternative : Alternative span bound nested (.symbol .statement)) (enough : bound ≤ fuel)

def branchesForm : Form :=
  inOrder [.symbol .statement, optional [word .elseWord, .symbol .statement]]

theorem branches_completes {place : Span} {condition : Expression}
    (positive : Completes span bound Something nested form [.keyword .elseWord]) :
    Completes span bound Something (Grammar.branches nested place condition) (inOrder [form])
      [.keyword .elseWord] :=
  .bind positive.require .last fun _ _ => .pass (Reads.pure ⟨_, rfl⟩).toCompletes .last

theorem branches_completes_else {place : Span} {condition : Expression}
    (positive : Completes span bound Something nested form [])
    (negative : Completes span bound Something nested form' stop) :
    Completes span bound Something (Grammar.branches nested place condition)
      (inOrder [form, word .elseWord, form']) stop :=
  .bind positive.require .nil fun _ _ => .acceptWithin
    (.bind negative.require .last fun _ _ => (Reads.pure ⟨_, rfl⟩).toCompletes)

include alternative in
/-- The branches of a conditional are a single statement, or else the first of
them is closed. -/
theorem single_or_closed {used : List Token} (derived : Derives branchesForm used) :
    Derives (.symbol .statement) used ∨
      ∃ positive, Completes span bound Something nested (exactly (.symbol .statement) positive) [] ∧
        Derives (inOrder [exactly (.symbol .statement) positive, word .elseWord,
          .symbol .statement]) used := by
  obtain ⟨positive, others, rfl, positiveDerived, othersDerived⟩ := derives_cons_iff.mp derived
  rcases derives_optional_iff.mp (derives_only_iff.mp othersDerived) with others | rfl
  · rcases alternative.settled positiveDerived with closed | isOpen
    · exact .inr ⟨positive, closed, .both (derives_exactly_iff.mpr ⟨rfl, positiveDerived⟩) others⟩
    · -- The first branch takes the `ELSE` and is a statement together with what follows.
      obtain ⟨token, negative, rfl, isElse, negativeDerived⟩ := derives_token_cons_iff.mp others
      exact .inl (isOpen isElse (derives_only_iff.mp negativeDerived))
  · exact .inl (by simpa using positiveDerived)

include alternative in
theorem branches_reads {place : Span} {condition : Expression} :
    Reads span bound Something (Grammar.branches nested place condition) branchesForm
      [.keyword .elseWord] where
  complete {used rest} derived stops short := by
    rcases single_or_closed alternative derived with single | ⟨positive, closed, derived⟩
    · exact (branches_completes alternative.toCompletes).complete (derives_only_iff.mpr single)
        stops short
    · exact (branches_completes_else closed alternative.toCompletes).complete derived stops short
  sound read := by
    obtain ⟨positive, between, positiveRead, continued⟩ := bind_ok_iff.mp read
    have statement : Reads span bound Anything (Grammar.requiredStatement nested)
        (.symbol .statement) [.keyword .elseWord] := .require alternative.toRecognizes
    obtain ⟨-, first, rfl, firstDerived⟩ := statement.sound positiveRead
    have others : Reads span bound Something
        (do
          if ← accept (.keyword .elseWord) then
            let negative ← Grammar.requiredStatement nested
            return some (Statement.conditional place condition positive (some negative))
          else
            return some (Statement.conditional place condition positive none))
        (optional [word .elseWord, .symbol .statement]) [.keyword .elseWord] :=
      .branch (by decide) (.bind statement .last fun _ _ => .pure ⟨_, rfl⟩) (.pure ⟨_, rfl⟩) .last
    obtain ⟨found, second, rfl, secondDerived⟩ := others.sound continued
    exact ⟨found, first ++ second, (List.append_assoc _ _ _).symm,
      .both firstDerived (derives_only_iff.mpr secondDerived)⟩

include alternative in
theorem branches_settled {place : Span} {condition : Expression} :
    Settled span bound Something (Grammar.branches nested place condition) branchesForm := by
  intro used derived
  rcases single_or_closed alternative derived with single | ⟨positive, closed, derived⟩
  · right
    intro token other isElse otherDerived
    exact .both single (derives_only_iff.mpr
      (.left (.both (.token isElse) (derives_only_iff.mpr otherDerived))))
  · obtain ⟨first, second, rfl, firstDerived, secondDerived⟩ := derives_cons_iff.mp derived
    obtain ⟨rfl, positiveDerived⟩ := derives_exactly_iff.mp firstDerived
    obtain ⟨middle, negative, rfl, divides, lastDerived⟩ :=
      derives_token_cons_iff.mp secondDerived
    have negativeDerived := derives_only_iff.mp lastDerived
    rcases alternative.settled negativeDerived with closed' | isOpen
    · left
      refine (branches_completes_else closed closed').exactly (.both firstDerived ?_)
      exact .both (.token divides)
        (derives_only_iff.mpr (derives_exactly_iff.mpr ⟨rfl, negativeDerived⟩))
    · right
      intro token other isElse otherDerived
      rw [List.append_assoc, List.cons_append]
      exact .both positiveDerived (derives_only_iff.mpr (.left (.both (.token divides)
        (derives_only_iff.mpr (isOpen isElse otherDerived)))))

include alternative enough in
theorem conditional_alternative :
    Alternative span (bound + 1) (Grammar.conditional fuel nested) (.symbol .conditional) := by
  have condition := @requiredExpression_reads span _ _ enough
  refine .symbol ⟨.position fun place => .accept (by decide) rfl ?_,
    .position fun place => .accept ?_⟩
  · refine .bind condition (by decide) fun _ _ => ?_
    exact .bind (.expect (by decide)) (by decide) fun _ _ => branches_reads alternative
  · refine .bind condition.toCompletes (by decide) fun _ _ => ?_
    exact .bind (Reads.expect (by decide)).toCompletes (by decide) fun _ _ =>
      branches_settled alternative

include alternative enough in
theorem whileLoop_alternative :
    Alternative span (bound + 1) (Grammar.whileLoop fuel nested) (.symbol .whileLoop) := by
  have condition := @requiredExpression_reads span _ _ enough
  refine .symbol ⟨.position fun place => .accept (by decide) rfl ?_,
    .position fun place => .accept ?_⟩
  · refine .bind condition (by decide) fun _ _ => ?_
    refine .bind (.expect (by decide)) (by decide) fun _ _ => ?_
    exact .bind (.require alternative.toRecognizes) (by decide) fun _ _ => .pure ⟨_, rfl⟩
  · refine .bind condition.toCompletes (by decide) fun _ _ => ?_
    refine .bind (Reads.expect (by decide)).toCompletes (by decide) fun _ _ => ?_
    exact .last alternative.settled.require fun _ _ => .pure ⟨_, rfl⟩

include alternative enough in
theorem forLoop_alternative :
    Alternative span (bound + 1) (Grammar.forLoop fuel nested) (.symbol .forLoop) := by
  have declaration := @variableDeclaration_recognizes span _ _ enough
  have loop := (whileLoop_alternative alternative enough).weaken (Nat.le_succ bound)
  refine .symbol ⟨.position fun place => .accept (by decide) rfl ?_,
    .position fun place => .accept ?_⟩
  · refine .bind (.require declaration) (by decide) fun _ _ => ?_
    exact .bind (.require loop.toRecognizes) (by decide) fun _ _ => .pure ⟨_, rfl⟩
  · refine .bind declaration.toCompletes.require (by decide) fun _ _ => ?_
    exact .last loop.settled.require fun _ _ => .pure ⟨_, rfl⟩

/-! ## Other statements -/

include alternative enough in
theorem sequence_reads :
    Reads span bound Anything (Grammar.sequence fuel nested) (.symbol .sequence)
      ([.keyword .elseWord] ++ starts .sequence) := by
  have child := Recognizes.firstApplicable (declaration_recognizes alternative.toRecognizes enough)
    (.firstApplicable alternative.toRecognizes .none (by decide) (by decide)) (by decide)
    (by decide)
  have children := Reads.many child (by decide) (by decide) enough
  refine .symbol (.position fun place => .congr ?_ derives_only_iff)
  exact .bind children (by decide) fun _ _ => .pure trivial

include alternative enough in
theorem block_recognizes :
    Recognizes span (bound + 1) (Grammar.block fuel nested) (.symbol .compound) [] := by
  refine .symbol (.accept (by decide) rfl ?_)
  refine .bind (sequence_reads alternative enough) (by decide) fun _ _ => ?_
  exact .bind (.expect (by decide)) (by decide) fun _ _ => .pure ⟨_, rfl⟩

include alternative enough in
theorem matching_recognizes :
    Recognizes span (bound + 1) (Grammar.matching fuel nested) (.symbol .matching) [] := by
  have block := (matchBlock_recognizes alternative.toRecognizes enough).weaken
    (Nat.le_succ bound) (List.Subset.refl [])
  refine .symbol (.position fun place => .accept (by decide) rfl ?_)
  refine .bind (.expect (by decide)) (by decide) fun _ _ => ?_
  refine .bind (requiredExpression_reads enough) (by decide) fun _ _ => ?_
  exact .bind (.require block) (by decide) fun _ _ => .pure ⟨_, rfl⟩

end Nested

theorem expressionStatement_recognizes (enough : bound ≤ fuel) :
    Recognizes span bound (Grammar.expressionStatement fuel) (.symbol .expressionStatement)
      [] := by
  have content := (expression_recognizes span fuel).weaken enough (List.Subset.refl _)
  refine .symbol (.bind content (by decide) rfl fun _ => ?_)
  exact .bind (.expect (by decide)) (by decide) fun _ _ => .pure ⟨_, rfl⟩

theorem emptyStatement_recognizes :
    Recognizes span bound Grammar.emptyStatement (.symbol .empty) [] := by
  refine .symbol (.congr (.position fun place => ?_) derives_only_iff (by decide))
  exact .acceptWithin (by decide) rfl (.pure ⟨_, rfl⟩)

theorem derives_jump_iff {tokens : List Token} :
    Derives (oneOf [inOrder [word .skipWord, mark .semicolon],
        inOrder [word .stopWord, mark .semicolon],
        inOrder [word .returnWord, optional [.symbol .expression], mark .semicolon]]) tokens ↔
      Derives (rule .jump) tokens := by
  constructor
  · intro derived
    simp only [derives_oneOf_cons_iff, not_derives_never, or_false] at derived
    rcases derived with skips | stops | returns
    · obtain ⟨before, after, rfl, jump, ended⟩ := derives_cons_iff.mp skips
      exact .both (.left jump) ended
    · obtain ⟨before, after, rfl, jump, ended⟩ := derives_cons_iff.mp stops
      exact .both (.right (.left jump)) ended
    · obtain ⟨token, after, rfl, opens, derived⟩ := derives_token_cons_iff.mp returns
      obtain ⟨value, after, rfl, valueDerived, ended⟩ := derives_cons_iff.mp derived
      have jump : Derives (inOrder [word .returnWord, optional [.symbol .expression]])
          (token :: value) := .both (.token opens) (derives_only_iff.mpr valueDerived)
      rw [← List.cons_append]
      exact .both (.right (.right (.left jump))) ended
  · intro derived
    obtain ⟨before, after, rfl, jump, ended⟩ := derives_cons_iff.mp derived
    simp only [derives_oneOf_cons_iff, not_derives_never, or_false] at jump
    rcases jump with skips | stops | returns
    · exact .left (.both skips ended)
    · exact .right (.left (.both stops ended))
    · obtain ⟨token, value, rfl, opens, valueDerived⟩ := derives_token_cons_iff.mp returns
      rw [List.cons_append]
      exact .right (.right (.left (.both (.token opens)
        (.both (derives_only_iff.mp valueDerived) ended))))

theorem jump_eq (tokens : List Token) :
    Grammar.jump fuel (.endOfSource span) tokens =
      (do
        let place ← position
        if ← accept (.keyword .skipWord) then
          expect (.mark .semicolon)
          return some (Statement.skip place)
        else if ← accept (.keyword .stopWord) then
          expect (.mark .semicolon)
          return some (Statement.stop place)
        else if ← accept (.keyword .returnWord) then
          let value ← Grammar.expression fuel
          expect (.mark .semicolon)
          return some (Statement.giveBack place value)
        else
          return none : Grammar.StatementRule) (.endOfSource span) tokens := by
  cases tokens with
  | nil => rfl
  | cons token tokens =>
      obtain ⟨lexeme, place⟩ := token
      cases lexeme with
      | keyword word => cases word <;> rfl
      | _ => rfl

theorem jump_recognizes (enough : bound ≤ fuel) :
    Recognizes span bound (Grammar.jump fuel) (.symbol .jump) [] := by
  have value := (expression_recognizes span fuel).weaken enough (List.Subset.refl _)
  have ended (result : Statement) : Reads span bound Something
      (expect (.mark .semicolon) >>= fun _ => pure (some result)) (inOrder [mark .semicolon]) [] :=
    .bind (.expect (by decide)) .last fun _ _ => .pure ⟨result, rfl⟩
  refine .symbol (.congr (.of_eq (.position fun place => ?_) jump_eq) derives_jump_iff
    (by decide))
  refine .choose (by decide) (ended _) ?_ (by decide)
  refine .choose (by decide) (ended _) ?_ (by decide)
  refine .choose (by decide) ?_ .none (by decide)
  exact .bind (.possible value) (by decide) fun _ _ => ended _

/-! ## All statements -/

theorem statementWith_alternative {nested : Grammar.StatementRule}
    (alternative : Alternative span bound nested (.symbol .statement)) (enough : bound < fuel) :
    Alternative span (bound + 1) (Grammar.statementWith fuel nested) (.symbol .statement) := by
  have enough' := Nat.le_of_lt enough
  refine .symbol ?_
  refine .firstApplicable (.of_recognizes (block_recognizes alternative enough')) ?_
    (by decide) (by decide)
  refine .firstApplicable (.of_recognizes (expressionStatement_recognizes enough)) ?_
    (by decide) (by decide)
  refine .firstApplicable (conditional_alternative alternative enough') ?_
    (by decide) (by decide)
  refine .firstApplicable (forLoop_alternative alternative enough') ?_
    (by decide) (by decide)
  refine .firstApplicable (whileLoop_alternative alternative enough') ?_
    (by decide) (by decide)
  refine .firstApplicable (.of_recognizes (jump_recognizes enough)) ?_
    (by decide) (by decide)
  refine .firstApplicable (.of_recognizes (matching_recognizes alternative enough')) ?_
    (by decide) (by decide)
  exact .firstApplicable (.of_recognizes emptyStatement_recognizes) (.of_recognizes .none)
    (by decide) (by decide)

/-- The rule for statements reads all of them that have fewer tokens than it has
fuel. -/
theorem statement_alternative (span : Span) (fuel : Nat) :
    Alternative span fuel (Grammar.statement fuel) (.symbol .statement) := by
  induction fuel with
  | zero => exact .of_recognizes .exhausted
  | succ fuel ih => exact statementWith_alternative ih (Nat.lt_succ_self fuel)

end Syntax

end Plainspoken
