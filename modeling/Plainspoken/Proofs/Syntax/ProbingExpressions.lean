import Plainspoken.Proofs.Syntax.Expressions
import Plainspoken.Proofs.Syntax.Probing
import Plainspoken.Proofs.TreeParts

/-!
# Rules for expressions probe

Each level of expressions applies where its first operand does.  What is built on the way
tells where expressions start: one that is made of others starts with its first operand, but
an assignment starts behind its target, where the next target or the value starts.
-/

namespace Plainspoken

open List (Forall₂)

/-! ## Where expressions start -/

namespace Expression

/-- What an assignment assigns to. -/
def target? : Expression → Option Expression
  | .assign _ target _ => some target
  | _ => none

/-- Where an expression starts that is made of others, apart from where these start. -/
def StartsWithOperand (Behind : Span → Span → Prop) : Expression → Prop
  | .binary place _ left _ => place = left.span
  | .ternary place condition _ _ => place = condition.span
  | .pipe place first _ _ => place = first.span
  | .assign place target value =>
      Behind target.span place ∧ (place = value.span ∨ value.target?.map span = some place)
  | .literal _ _ | .identifier _ _ | .unary _ _ _ | .noneTest _ _ | .call _ _ _ => True

end Expression

namespace Syntax

/-- One place is that of a token, and the other one that of a later token. -/
def Follows (whole : List Token) (place later : Span) : Prop :=
  List.Sublist [place, later] (whole.map Token.span)

/-- In an expression that is part of another one, everything starts where it should. -/
def Arranged (whole : List Token) (expression : Expression) : Prop :=
  ∀ part, expression.IsPart part → part.StartsWithOperand (Follows whole)

/-- The expression starts at one of the tokens that are used for it. -/
structure Placed (whole used : List Token) (expression : Expression) : Prop where
  start : expression.span ∈ used.map Token.span
  arranged : Arranged whole expression

variable {whole used used' : List Token} {expression : Expression}

theorem Arranged.of_parts (own : expression.StartsWithOperand (Follows whole))
    (parts : ∀ part ∈ expression.parts, Arranged whole part) : Arranged whole expression := by
  intro part isPart
  obtain rfl | ⟨middle, member, inside⟩ := isPart.eq_or_of_part
  · exact own
  · exact parts middle member part inside

namespace Placed

theorem mono (placed : Placed whole used expression) (more : used ⊆ used') :
    Placed whole used' expression :=
  ⟨List.map_subset Token.span more placed.start, placed.arranged⟩

/-- The expression starts with the first token that is used for it. -/
theorem of_first {place : Span} (first : used.head?.map Token.span = some place)
    (starts : expression.span = place) (arranged : Arranged whole expression) :
    Placed whole used expression := by
  refine ⟨?_, arranged⟩
  obtain ⟨token, isFirst, rfl⟩ := Option.map_eq_some_iff.mp first
  exact starts ▸ List.mem_map_of_mem (List.mem_of_mem_head? isFirst)

/-- Operands that are joined from the left start where the first of them does. -/
theorem foldl {σ : Type} {join : Expression → σ → Expression} {valid : σ → Prop}
    (joins : ∀ left part, Arranged whole left → valid part →
      (join left part).span = left.span ∧ Arranged whole (join left part))
    (placed : Placed whole used expression) {parts : List σ}
    (areValid : ∀ part ∈ parts, valid part) : Placed whole used (parts.foldl join expression) := by
  refine List.foldlRecOn parts join placed fun left leftPlaced part member => ?_
  obtain ⟨start, arranged⟩ := joins left part leftPlaced.arranged (areValid part member)
  exact ⟨start ▸ leftPlaced.start, arranged⟩

/-- Targets that are joined with a value from the right. -/
theorem joinAssignments {pieces : List (List Token)} {others : List Expression}
    (placed : Placed whole used expression) (areOthers : Forall₂ (Placed whole) pieces others)
    (inside : (used ++ pieces.flatten).Sublist whole) :
    Placed whole (used ++ pieces.flatten) (Grammar.joinAssignments expression others) := by
  induction areOthers generalizing used expression with
  | nil => exact placed.mono (List.subset_append_left _ _)
  | @cons piece second pieces others secondPlaced _ ih =>
      have joined := ih secondPlaced ((List.sublist_append_right used _).trans inside)
      have start : second.span ∈ piece.map Token.span := secondPlaced.start
      refine ⟨?_, .of_parts ⟨?_, ?_⟩ ?_⟩
      · exact List.map_subset Token.span (fun token member => by simp [member]) start
      · have pair : List.Sublist [expression.span, second.span]
            ((used ++ (piece ++ pieces.flatten)).map Token.span) := by
          rw [List.map_append, List.map_append]
          exact (List.singleton_sublist.mpr placed.start).append
            ((List.singleton_sublist.mpr start).trans (List.sublist_append_left _ _))
        exact pair.trans (inside.map Token.span)
      · cases others with
        | nil => exact .inl rfl
        | cons third others => exact .inr rfl
      · exact List.forall_mem_cons.mpr ⟨placed.arranged,
          List.forall_mem_singleton.mpr joined.arranged⟩

end Placed

/-! ## Operands -/

section Alternatives

open Rule Grammar

variable (chain : Nat) (nested : ExpressionRule)

def literal : ExpressionRule := do
  let token ← current
  let literal (value : Value) : ExpressionRule := do
    advance
    return some (.literal token.span value)
  match token.lexeme with
  | .number amount => literal (.number amount)
  | .text content => literal (.text content)
  | .fact holds => literal (.fact holds)
  | .keyword .noneWord => literal .nothing
  | _ => return none

def named : ExpressionRule := do
  let token ← current
  match token.lexeme with
  | .identifier name =>
      advance
      return some (.identifier token.span name)
  | _ => return none

def enclosed : ExpressionRule := do
  if ← accept (.mark .openParenthesis) then
    return some (← parenthesised nested)
  else
    return none

def call : ExpressionRule := do
  let span ← position
  if ← accept (.keyword .callWord) then
    return some (← callFrom chain nested span)
  else
    return none

def operandAlternatives : Alternatives Expression :=
  [(literalStarts, literal), ([.identifier], named), ([.mark .openParenthesis], enclosed nested),
    ([.keyword .callWord], call chain nested)]

end Alternatives

section Levels

open Rule

variable {bound chain chain' : Nat} {nested nested' : Grammar.ExpressionRule}

theorem literal_probes :
    Probes whole (bound + 1) literalStarts (Placed whole) literal literal := by
  refine .selectOnly (by decide) ?_ ?_
  · rintro ⟨lexeme, place⟩ starting
    have placed (value : Value) :
        Takes whole bound (Placed whole) ⟨lexeme, place⟩
          (advance >>= fun _ => pure (some (.literal place value)))
          (advance >>= fun _ => pure (some (.literal place value))) :=
      .advance (.pure ⟨_, rfl, List.mem_singleton_self _, .of_parts trivial nofun⟩)
    cases lexeme with
    | number amount => exact placed (.number amount)
    | text content => exact placed (.text content)
    | fact holds => exact placed (.fact holds)
    | keyword word =>
        have isNone : word = .noneWord := by
          simpa [literalStarts, Token.kind, Lexeme.kind] using starting
        subst isNone
        exact placed .nothing
    | _ => simp [literalStarts, Token.kind, Lexeme.kind] at starting
  · rintro ⟨lexeme, place⟩ other
    dsimp only
    split
    · simp [literalStarts, Token.kind, Lexeme.kind] at other
    · simp [literalStarts, Token.kind, Lexeme.kind] at other
    · simp [literalStarts, Token.kind, Lexeme.kind] at other
    · simp [literalStarts, Token.kind, Lexeme.kind] at other
    · exact ⟨rfl, rfl⟩

theorem named_probes :
    Probes whole (bound + 1) [.identifier] (Placed whole) named named := by
  refine .selectOnly (by decide) ?_ ?_
  · rintro ⟨lexeme, place⟩ starting
    cases lexeme with
    | identifier name =>
        exact .advance (.pure ⟨_, rfl, List.mem_singleton_self _, .of_parts trivial nofun⟩)
    | _ => simp [Token.kind, Lexeme.kind] at starting
  · rintro ⟨lexeme, place⟩ other
    dsimp only
    split
    · simp [Token.kind, Lexeme.kind] at other
    · exact ⟨rfl, rfl⟩

variable (inner : Probes whole bound expressionStarts (Placed whole) nested nested')
  (enough : bound + 1 ≤ chain) (enough' : bound + 1 ≤ chain')

include inner

theorem enclosed_probes : Probes whole (bound + 1) [.mark .openParenthesis] (Placed whole)
    (enclosed nested) (enclosed nested') := by
  have inside : Consumes whole bound (Placed whole) (Grammar.parenthesised nested)
      (Grammar.parenthesised nested') :=
    (Consumes.require inner).bind fun used value placed =>
      (Consumes.expect (by decide)).bind fun _ _ _ =>
        .pure (placed.mono (List.subset_append_left _ _))
  exact .accept (by decide) ⟨rfl, rfl⟩ fun token => inside.bind fun used value placed =>
    .pure ⟨value, rfl, placed.mono (by simp)⟩

theorem furtherArgument_probes : Probes whole (bound + 1) [.mark .comma]
    (fun _ => Arranged whole) (Grammar.furtherArgument nested)
      (Grammar.furtherArgument nested') :=
  .accept (by decide) ⟨rfl, rfl⟩ fun _ => (Consumes.require inner).bind fun _ value placed =>
    .pure ⟨value, rfl, placed.arranged⟩

include enough enough'

theorem callArguments_consumes : Consumes whole bound
    (fun _ arguments => ∀ argument ∈ arguments, Arranged whole argument)
    (Grammar.callArguments chain nested) (Grammar.callArguments chain' nested') := by
  have others := (Consumes.manyEach (furtherArgument_probes inner) enough enough').weaken
    (Nat.le_succ bound)
  refine .branch (by decide) (Nat.le_succ _) (fun _ => ?_) (.pure (List.forall_mem_nil _))
  exact (Consumes.require inner).bind fun _ first placed => others.bind fun _ _ areArranged =>
    .pure (List.forall_mem_cons.mpr ⟨placed.arranged, areArranged⟩)

theorem call_probes : Probes whole (bound + 1) [.keyword .callWord] (Placed whole)
    (call chain nested) (call chain' nested') := by
  have called (place : Span) : Consumes whole bound
      (fun _ expression => expression.span = place ∧ Arranged whole expression)
      (Grammar.callFrom chain nested place) (Grammar.callFrom chain' nested' place) :=
    Consumes.identifier.bind fun _ name _ =>
      (callArguments_consumes inner enough enough').bind fun _ arguments areArranged =>
        (Consumes.expect (by decide)).bind fun _ _ _ => .pure ⟨rfl, .of_parts trivial areArranged⟩
  refine .position fun place => .accept (by decide) ⟨rfl, rfl⟩ fun token => ?_
  exact (called place).bind fun used expression ⟨starts, arranged⟩ =>
    .pure ⟨expression, rfl, fun first => .of_first first starts arranged⟩

omit inner enough enough' in
theorem primary_of_untold {ending : StreamEnd} {tokens : List Token}
    (untold : nextKind tokens ∉ operandStarts) :
    Grammar.primary chain nested ending tokens = .ok (none, tokens) := by
  rw [← kind_headD_endToken ending] at untold
  unfold Grammar.primary
  rw [bind_of_ok (rfl : current ending tokens = .ok (tokens.headD (endToken ending), tokens))]
  generalize tokens.headD (endToken ending) = token at untold
  obtain ⟨lexeme, place⟩ := token
  change _ = (pure none : Grammar.ExpressionRule) ending tokens
  refine congrFun (congrFun ?_ ending) tokens
  dsimp only
  split
  case h_8 => rfl
  all_goals simp [operandStarts, literalStarts, Token.kind, Lexeme.kind] at untold

/-- An operand is what its first token tells. -/
theorem primary_chosen {ending : StreamEnd} {tokens : List Token}
    (remain : Remain whole (bound + 1) tokens) :
    ChosenFrom (operandAlternatives chain nested) (Grammar.primary chain nested) ending
      tokens := by
  have each : ∀ alternative ∈ operandAlternatives chain nested,
      Probes whole (bound + 1) alternative.1 (Placed whole) alternative.2 alternative.2 := by
    simp only [operandAlternatives, List.forall_mem_cons]
    exact ⟨literal_probes, named_probes, (enclosed_probes inner).self,
      (call_probes inner enough enough').self, List.forall_mem_nil _⟩
  have apart : [literalStarts, [.identifier], [.mark .openParenthesis],
      [.keyword .callWord]].Pairwise fun earlier later => ∀ kind ∈ earlier, kind ∉ later := by
    decide
  refine (chosenFrom_firstApplicable each apart remain).of_told ?_ fun other => ?_
  · cases tokens with
    | nil =>
        have inside : ∀ alternative ∈ operandAlternatives chain nested,
            TokenKind.endOfSource ∉ alternative.1 := by
          simp only [operandAlternatives, List.forall_mem_cons]
          decide
        exact fun alternative member ended => absurd ended (inside alternative member)
    | cons token others =>
        obtain ⟨lexeme, place⟩ := token
        simp only [operandAlternatives, List.forall_mem_cons]
        refine ⟨fun starting => ?_, fun starting => ?_, fun starting => ?_, fun starting => ?_,
          List.forall_mem_nil _⟩
        · cases lexeme with
          | number | text | fact => rfl
          | keyword word =>
              have isNone : word = .noneWord := by
                simpa [literalStarts, Token.kind, Lexeme.kind] using starting
              subst isNone
              rfl
          | _ => simp [literalStarts, Token.kind, Lexeme.kind] at starting
        · cases lexeme with
          | identifier name => rfl
          | _ => simp [Token.kind, Lexeme.kind] at starting
        · cases lexeme with
          | mark sign =>
              have opens : sign = .openParenthesis := by
                simpa [Token.kind, Lexeme.kind] using starting
              subst opens
              have opened :
                  enclosed nested ending (⟨.mark .openParenthesis, place⟩ :: others) = _ :=
                accept_of_same rfl
              exact opened.symm
          | _ => simp [Token.kind, Lexeme.kind] at starting
        · cases lexeme with
          | keyword word =>
              have calls : word = .callWord := by
                simpa [Token.kind, Lexeme.kind] using starting
              subst calls
              have called : call chain nested ending (⟨.keyword .callWord, place⟩ :: others) = _ :=
                accept_of_same rfl
              exact called.symm
          | _ => simp [Token.kind, Lexeme.kind] at starting
  · refine primary_of_untold fun starting => ?_
    have some : ∃ alternative ∈ operandAlternatives chain nested,
        nextKind tokens ∈ alternative.1 := by
      simpa [operandAlternatives, operandStarts, or_assoc] using starting
    obtain ⟨alternative, member, stands⟩ := some
    exact other alternative member stands

theorem primary_probes : Probes whole (bound + 1) operandStarts (Placed whole)
    (Grammar.primary chain nested) (Grammar.primary chain' nested') := by
  have alternatives : Probes whole (bound + 1) operandStarts (Placed whole)
      (firstApplicable ((operandAlternatives chain nested).map Prod.snd))
      (firstApplicable ((operandAlternatives chain' nested').map Prod.snd)) :=
    .firstApplicable_cons literal_probes (.firstApplicable_cons named_probes
      (.firstApplicable_cons (enclosed_probes inner) (.firstApplicable_cons
        (call_probes inner enough enough') .firstApplicable_nil)))
  refine alternatives.congr fun remain =>
    ⟨(primary_chosen inner enough enough' remain).inOrder, ?_⟩
  exact (primary_chosen inner.symm enough' enough remain).inOrder

theorem noneTest_probes : Probes whole (bound + 1) operandStarts (Placed whole)
    (Grammar.noneTest chain nested) (Grammar.noneTest chain' nested') := by
  refine .position fun place => (primary_probes inner enough enough').bind (Nat.le_succ _)
    ⟨rfl, rfl⟩ fun used operand placed => .branch (by decide) (Nat.le_succ _) (fun token => ?_) ?_
  · exact .pure ⟨_, rfl, fun first => .of_first first rfl
      (.of_parts trivial (List.forall_mem_singleton.mpr placed.arranged))⟩
  · exact .pure ⟨operand, rfl, fun _ => placed.mono (by simp)⟩

theorem unary_probes : Probes whole (bound + 1) expressionStarts (Placed whole)
    (Grammar.unary chain nested) (Grammar.unary chain' nested') := by
  have tests := noneTest_probes inner enough enough'
  refine .select signs (by decide) ?_ tests ?_
  · rintro ⟨lexeme, place⟩ starting
    obtain ⟨operator, found⟩ :=
      Option.isSome_iff_exists.mp ((unaryOperator?_isSome lexeme).mpr starting)
    simp only [found]
    exact .advance ((Consumes.require (tests.weaken (Nat.le_succ _))).bind
      fun used operand placed => .pure ⟨_, rfl, List.mem_cons_self,
        .of_parts trivial (List.forall_mem_singleton.mpr placed.arranged)⟩)
  · rintro ⟨lexeme, place⟩ other
    have unsigned : Grammar.unaryOperator? lexeme = none := by
      rw [← Option.not_isSome_iff_eq_none, unaryOperator?_isSome]
      exact other
    simp only [unsigned]
    exact ⟨trivial, trivial⟩

/-! ## Chains -/

omit inner enough enough' in
/-- An operand and what is joined to it from the left. -/
theorem chain_probes {σ : Type} {starts starts' : List TokenKind}
    {operand operand' : Grammar.ExpressionRule} {part part' : Rule (Option σ)}
    {join : Expression → σ → Expression} {valid : σ → Prop}
    (first : Probes whole (bound + 1) starts (Placed whole) operand operand')
    (each : Probes whole (bound + 1) starts' (fun _ => valid) part part')
    (enough : bound + 1 ≤ chain) (enough' : bound + 1 ≤ chain')
    (joins : ∀ left part, Arranged whole left → valid part →
      (join left part).span = left.span ∧ Arranged whole (join left part)) :
    Probes whole (bound + 1) starts (Placed whole)
      (operand >>= fun
        | none => pure none
        | some first => many chain part >>= fun parts => pure (some (parts.foldl join first)))
      (operand' >>= fun
        | none => pure none
        | some first => many chain' part' >>= fun parts =>
            pure (some (parts.foldl join first))) := by
  refine first.bind (Nat.le_succ _) ⟨rfl, rfl⟩ fun used left placed => ?_
  refine (Consumes.manyEach each enough enough').bind fun used' parts areValid => ?_
  exact .pure ⟨_, rfl, (placed.mono (List.subset_append_left _ _)).foldl joins areValid⟩

omit inner enough enough' in
theorem operatorAndOperand_probes {operand operand' : Grammar.ExpressionRule}
    {starts : List TokenKind} {table : Grammar.OperatorTable}
    (inside : .endOfSource ∉ table.map Prod.fst)
    (operands : Probes whole bound starts (Placed whole) operand operand') :
    Probes whole (bound + 1) (table.map Prod.fst) (fun _ part => Arranged whole part.2)
      (Grammar.operatorAndOperand table operand) (Grammar.operatorAndOperand table operand') := by
  refine .selectOnly inside ?_ ?_
  · intro token starting
    obtain ⟨operator, found⟩ := Option.isSome_iff_exists.mp (lookup_isSome_iff.mpr starting)
    simp only [found]
    exact .advance ((Consumes.require operands).bind fun used right placed =>
      .pure ⟨_, rfl, placed.arranged⟩)
  · intro token other
    have unknown : table.lookup token.kind = none := by
      rwa [← Option.not_isSome_iff_eq_none, lookup_isSome_iff]
    simp only [unknown]
    exact ⟨trivial, trivial⟩

omit inner in
theorem binaryLevel_probes {operand operand' : Grammar.ExpressionRule} {starts : List TokenKind}
    {table : Grammar.OperatorTable} (inside : .endOfSource ∉ table.map Prod.fst)
    (operands : Probes whole (bound + 1) starts (Placed whole) operand operand') :
    Probes whole (bound + 1) starts (Placed whole) (Grammar.binaryLevel chain operand table)
      (Grammar.binaryLevel chain' operand' table) := by
  have each := operatorAndOperand_probes inside (operands.weaken (Nat.le_succ _))
  refine chain_probes operands each enough enough' fun left part arranged partArranged =>
    ⟨rfl, .of_parts rfl ?_⟩
  exact List.forall_mem_cons.mpr ⟨arranged, List.forall_mem_singleton.mpr partArranged⟩

omit inner in
theorem binaryLevels_probe (tables : List Grammar.OperatorTable)
    (inside : ∀ table ∈ tables, TokenKind.endOfSource ∉ table.map Prod.fst)
    {operand operand' : Grammar.ExpressionRule} {starts : List TokenKind}
    (operands : Probes whole (bound + 1) starts (Placed whole) operand operand') :
    Probes whole (bound + 1) starts (Placed whole)
      (tables.foldl (Grammar.binaryLevel chain) operand)
      (tables.foldl (Grammar.binaryLevel chain') operand') := by
  induction tables generalizing operand operand' with
  | nil => exact operands
  | cons table tables ih =>
      obtain ⟨first, others⟩ := List.forall_mem_cons.mp inside
      exact ih others (binaryLevel_probes enough enough' first operands)

theorem binary_probes : Probes whole (bound + 1) expressionStarts (Placed whole)
    (Grammar.binary chain nested) (Grammar.binary chain' nested') :=
  binaryLevels_probe enough enough' Grammar.binaryLevels (by decide)
    (unary_probes inner enough enough')

theorem ternaryPart_probes : Probes whole (bound + 1) [.mark .question]
    (fun _ part => Arranged whole part.1 ∧ ∀ no ∈ part.2, Arranged whole no)
    (Grammar.ternaryPart chain nested) (Grammar.ternaryPart chain' nested') := by
  have operand := (binary_probes inner enough enough').weaken (Nat.le_succ bound)
  refine .accept (by decide) ⟨rfl, rfl⟩ fun _ => ?_
  refine (Consumes.require operand).bind fun _ yes yesPlaced =>
    .branch (by decide) (Nat.le_succ _) (fun _ => ?_) ?_
  · exact (Consumes.require operand).bind fun _ no noPlaced =>
      .pure ⟨_, rfl, yesPlaced.arranged, fun _ isNo => Option.mem_some.mp isNo ▸ noPlaced.arranged⟩
  · exact .pure ⟨_, rfl, yesPlaced.arranged, nofun⟩

theorem ternary_probes : Probes whole (bound + 1) expressionStarts (Placed whole)
    (Grammar.ternary chain nested) (Grammar.ternary chain' nested') := by
  refine chain_probes (binary_probes inner enough enough')
    (ternaryPart_probes inner enough enough') enough enough' ?_
  rintro condition ⟨yes, no⟩ arranged ⟨yesArranged, noArranged⟩
  refine ⟨rfl, .of_parts rfl (List.forall_mem_cons.mpr ⟨arranged, ?_⟩)⟩
  exact List.forall_mem_cons.mpr ⟨yesArranged, fun _ member =>
    noArranged _ (Option.mem_toList.mp member)⟩

theorem pipePart_probes : Probes whole (bound + 1)
    [.keyword .thenWord, .keyword .otherwiseWord]
    (fun _ part => (∀ success ∈ part.1, Arranged whole success) ∧
      ∀ failure ∈ part.2, Arranged whole failure)
    (Grammar.pipePart chain nested) (Grammar.pipePart chain' nested') := by
  have operand := (ternary_probes inner enough enough').weaken (Nat.le_succ bound)
  have only {used : List Token} {given : Expression} (placed : Placed whole used given)
      (other : Expression) (isOther : other ∈ some given) : Arranged whole other :=
    Option.mem_some.mp isOther ▸ placed.arranged
  refine .acceptOr (by decide) (fun _ => ?_) (.accept (by decide) ⟨rfl, rfl⟩ fun _ => ?_)
  · refine (Consumes.require operand).bind fun _ success placed =>
      .branch (by decide) (Nat.le_succ _) (fun _ => ?_) (.pure ⟨_, rfl, only placed, nofun⟩)
    exact (Consumes.require operand).bind fun _ failure failurePlaced =>
      .pure ⟨_, rfl, only placed, only failurePlaced⟩
  · exact (Consumes.require operand).bind fun _ failure placed =>
      .pure ⟨_, rfl, nofun, only placed⟩

theorem pipe_probes : Probes whole (bound + 1) expressionStarts (Placed whole)
    (Grammar.pipe chain nested) (Grammar.pipe chain' nested') := by
  refine chain_probes (ternary_probes inner enough enough')
    (pipePart_probes inner enough enough') enough enough' ?_
  rintro first ⟨success, failure⟩ arranged ⟨successArranged, failureArranged⟩
  refine ⟨rfl, .of_parts rfl (List.forall_mem_cons.mpr ⟨arranged, fun part member => ?_⟩)⟩
  rcases List.mem_append.mp member with isSuccess | isFailure
  · exact successArranged part (Option.mem_toList.mp isSuccess)
  · exact failureArranged part (Option.mem_toList.mp isFailure)

theorem assignedPart_probes : Probes whole (bound + 1) [.keyword .isWord] (Placed whole)
    (Grammar.assignedPart chain nested) (Grammar.assignedPart chain' nested') := by
  have operand := (pipe_probes inner enough enough').weaken (Nat.le_succ bound)
  exact .accept (by decide) ⟨rfl, rfl⟩ fun _ => (Consumes.require operand).bind
    fun used value placed => .pure ⟨value, rfl, placed.mono (by simp)⟩

theorem assignment_probes : Probes whole (bound + 1) expressionStarts (Placed whole)
    (Grammar.assignment chain nested) (Grammar.assignment chain' nested') := by
  have joined : Probes whole (bound + 1) expressionStarts
      (fun used expression => used.Sublist whole → Placed whole used expression)
      (Grammar.assignment chain nested) (Grammar.assignment chain' nested') := by
    refine (pipe_probes inner enough enough').bind (Nat.le_succ _) ⟨rfl, rfl⟩
      fun used first placed => ?_
    refine (Consumes.many (assignedPart_probes inner enough enough') enough enough').bind ?_
    rintro _ others ⟨pieces, rfl, areOthers⟩
    refine .pure ⟨_, rfl, fun inside => ?_⟩
    rw [List.append_nil] at inside ⊢
    exact placed.joinAssignments areOthers inside
  exact joined.mono fun used expression inside placed => placed inside.sublist

end Levels

/-- Expressions, within a bound that covers the number of tokens. -/
theorem expression_probes {bound depth depth' : Nat} (enough : bound ≤ depth)
    (enough' : bound ≤ depth') : Probes whole bound expressionStarts (Placed whole)
      (Grammar.expression depth) (Grammar.expression depth') := by
  induction bound generalizing depth depth' with
  | zero => exact .zero
  | succ bound ih =>
      obtain ⟨depth, rfl⟩ := Nat.exists_eq_succ_of_ne_zero (Nat.ne_zero_of_lt enough)
      obtain ⟨depth', rfl⟩ := Nat.exists_eq_succ_of_ne_zero (Nat.ne_zero_of_lt enough')
      exact assignment_probes (ih (Nat.le_of_succ_le_succ enough) (Nat.le_of_succ_le_succ enough'))
        enough enough'

end Syntax

end Plainspoken
