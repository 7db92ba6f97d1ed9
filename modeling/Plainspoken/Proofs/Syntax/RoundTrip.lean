import Plainspoken.Proofs.Syntax.LegibleStatements

/-!
# Writing a program and reading it again

A program that was read from a source is written with lexemes that the grammar
sees.  Reading these gives the program again, up to positions, and no other way to
write it has fewer parentheses.
-/

namespace Plainspoken

/-! ## Lexemes of programs -/

/-- Whether the grammar sees a lexeme before the end of the source. -/
def Lexeme.isInner (lexeme : Lexeme) : Bool :=
  lexeme.isSignificant && lexeme.kind != .endOfSource

namespace Syntax

/-- All lexemes stand before the end of the source. -/
def Inner (lexemes : List Lexeme) : Prop :=
  ∀ lexeme ∈ lexemes, lexeme.isInner = true

@[simp]
theorem inner_nil : Inner [] :=
  nofun

@[simp]
theorem inner_cons {lexeme : Lexeme} {lexemes : List Lexeme} :
    Inner (lexeme :: lexemes) ↔ lexeme.isInner = true ∧ Inner lexemes :=
  List.forall_mem_cons

@[simp]
theorem inner_append {first second : List Lexeme} :
    Inner (first ++ second) ↔ Inner first ∧ Inner second :=
  List.forall_mem_append

@[simp]
theorem isInner_keyword (word : Keyword) : (Lexeme.keyword word).isInner = true :=
  rfl

@[simp]
theorem isInner_mark (symbol : Mark) : (Lexeme.mark symbol).isInner = true :=
  rfl

@[simp]
theorem isInner_identifier (name : String) : (Lexeme.identifier name).isInner = true :=
  rfl

@[simp]
theorem isInner_value (value : Value) : value.lexeme.isInner = true := by
  cases value <;> rfl

@[simp]
theorem isInner_unaryOperator (operator : UnaryOperator) : operator.lexeme.isInner = true := by
  cases operator <;> rfl

@[simp]
theorem isInner_binaryOperator (operator : BinaryOperator) : operator.lexeme.isInner = true := by
  cases operator with
  | arithmetic operator => cases operator <;> rfl
  | compare comparison => cases comparison <;> rfl
  | _ => rfl

@[simp]
theorem isInner_valueType (type : ValueType) : type.lexeme.isInner = true := by
  cases type <;> rfl

@[simp]
theorem inner_enclosedIf {looser : Bool} {lexemes : List Lexeme} :
    Inner (Lexeme.enclosedIf looser lexemes) ↔ Inner lexemes := by
  cases looser <;> simp [Lexeme.enclosedIf]

theorem inner_led (lead : Lexeme) {written : Option (List Lexeme)} (isInner : lead.isInner = true)
    (inner : ∀ lexemes ∈ written, Inner lexemes) : Inner (Lexeme.led lead written) := by
  cases written with
  | none => exact inner_nil
  | some lexemes => exact inner_cons.mpr ⟨isInner, inner lexemes rfl⟩

theorem inner_listed (lead : Lexeme) {written : List (List Lexeme)} (isInner : lead.isInner = true)
    (inner : ∀ lexemes ∈ written, Inner lexemes) : Inner (Lexeme.listed lead written) := by
  cases written with
  | nil => exact inner_nil
  | cons first others =>
      refine inner_append.mpr ⟨inner_cons.mpr ⟨isInner, inner first List.mem_cons_self⟩, ?_⟩
      intro lexeme member
      obtain ⟨lexemes, isOther, inLexemes⟩ := List.mem_flatMap.mp member
      rcases List.mem_cons.mp inLexemes with rfl | inside
      · rfl
      · exact inner lexemes (List.mem_cons_of_mem first isOther) lexeme inside

mutual

theorem inner_write : (expression : Expression) → Inner expression.write
  | .literal _ _ | .identifier _ _ => by simp [Expression.write]
  | .unary _ _ operand | .noneTest _ operand => by simp [Expression.write, inner_write operand]
  | .binary _ _ left right | .assign _ left right => by
      simp [Expression.write, inner_write left, inner_write right]
  | .ternary _ condition yes no => by
      have colon := inner_led (.mark .colon) rfl (inner_writePart no 2)
      simp only [Expression.write, inner_append, inner_cons, inner_enclosedIf]
      exact ⟨⟨inner_write condition, rfl, inner_write yes⟩, colon⟩
  | .pipe _ first success failure => by
      have successful := inner_led (.keyword .thenWord) rfl (inner_writePart success 1)
      have failed := inner_led (.keyword .otherwiseWord) rfl (inner_writePart failure 1)
      simp only [Expression.write, inner_append, inner_enclosedIf]
      exact ⟨⟨inner_write first, successful⟩, failed⟩
  | .call _ _ arguments => by
      have listed := inner_listed (.keyword .withWord) rfl (inner_writeAll arguments)
      simp only [Expression.write, inner_append, inner_cons]
      exact ⟨⟨rfl, rfl, listed⟩, rfl, inner_nil⟩

theorem inner_writePart : (part : Option Expression) → (level : Nat) →
    ∀ lexemes ∈ Expression.writePart level part, Inner lexemes
  | none, _ => by simp only [Expression.writePart]; exact nofun
  | some part, level => by
      intro lexemes isPart
      simp only [Expression.writePart] at isPart
      cases isPart
      exact inner_enclosedIf.mpr (inner_write part)

theorem inner_writeAll : (expressions : List Expression) →
    ∀ lexemes ∈ Expression.writeAll expressions, Inner lexemes
  | [] => by simp [Expression.writeAll]
  | first :: others => by
      rw [Expression.writeAll]
      exact List.forall_mem_cons.mpr ⟨inner_write first, inner_writeAll others⟩

end

theorem inner_initial (lead : Lexeme) (isInner : lead.isInner = true) (initial : Option Expression) :
    Inner (Lexeme.led lead (initial.map Expression.write)) := by
  refine inner_led lead isInner fun lexemes isWritten => ?_
  obtain ⟨expression, -, rfl⟩ := Option.map_eq_some_iff.mp isWritten
  exact inner_write expression

theorem inner_declarator (declarator : Declarator) : Inner declarator.write := by
  obtain ⟨place, isMutable, type, name⟩ := declarator
  cases isMutable <;> simp [Declarator.write]

theorem inner_writeName (overrides : Bool) (name : String) : Inner (writeName overrides name) := by
  cases overrides <;> simp [writeName]

theorem inner_functionSignature (signature : FunctionSignature) : Inner signature.write := by
  have parameters : Inner (Lexeme.listed (.keyword .withWord)
      (signature.parameters.map Declarator.write)) := by
    refine inner_listed _ rfl fun lexemes isWritten => ?_
    obtain ⟨declarator, -, rfl⟩ := List.mem_map.mp isWritten
    exact inner_declarator declarator
  simp [FunctionSignature.write, inner_writeName, parameters]

theorem inner_patternSignature (signature : PatternSignature) : Inner signature.write := by
  simp [PatternSignature.write, inner_writeName, inner_declarator]

open Statement in
mutual

theorem inner_statement : (statement : Statement) → Inner statement.write
  | .expression content => by simp [write, inner_write content]
  | .variable declarator initial => by
      simp [write, inner_declarator, inner_initial (.keyword .isWord) rfl initial]
  | .function signature body => by
      simp [write, inner_functionSignature, inner_statement body]
  | .pattern signature body => by
      simp [write, inner_patternSignature, inner_block body]
  | .compound _ children => by
      simp only [write, inner_append, inner_cons]
      exact ⟨⟨rfl, inner_sequence children⟩, rfl, inner_nil⟩
  | .conditional _ condition positive negative => by
      have otherwise := inner_led (.keyword .elseWord) rfl (inner_writeElse negative)
      simp only [write, inner_append, inner_cons]
      exact ⟨⟨⟨rfl, inner_write condition⟩, rfl, inner_statement positive⟩, otherwise⟩
  | .loop _ condition body => by simp [write, inner_write condition, inner_statement body]
  | .skip _ | .stop _ | .empty _ => by simp [write]
  | .giveBack _ value => by cases value <;> simp [write, inner_write]
  | .matching _ subject body => by simp [write, inner_write subject, inner_block body]

theorem inner_writeElse : (negative : Option Statement) →
    ∀ lexemes ∈ writeElse negative, Inner lexemes
  | none => by simp [writeElse]
  | some negative => by
      intro lexemes isNegative
      simp only [writeElse] at isNegative
      cases isNegative
      exact inner_statement negative

theorem inner_sequence : (statements : List Statement) → Inner (writeAll statements)
  | [] => by simp [writeAll]
  | first :: others => by
      rw [writeAll]
      exact inner_append.mpr ⟨inner_statement first, inner_sequence others⟩

theorem inner_block : (statement : Statement) → Inner statement.writeBlock
  | .compound _ branches => by simp [writeBlock, inner_branches branches]
  | .expression _ | .variable _ _ | .function _ _ | .pattern _ _ | .conditional _ _ _ _
  | .loop _ _ _ | .skip _ | .stop _ | .giveBack _ _ | .matching _ _ _ | .empty _ => by
      simp [writeBlock]

theorem inner_branches : (branches : List Statement) → Inner (writeBranches branches)
  | [] => by simp [writeBranches]
  | first :: others => by
      rw [writeBranches]
      split
      · exact inner_default first
      · exact inner_append.mpr ⟨inner_branch first, inner_branches others⟩

theorem inner_branch : (statement : Statement) → Inner statement.writeBranch
  | .conditional _ condition chosen _ => by
      simp [writeBranch, inner_write condition, inner_statement chosen]
  | .expression _ | .variable _ _ | .function _ _ | .pattern _ _ | .compound _ _
  | .loop _ _ _ | .skip _ | .stop _ | .giveBack _ _ | .matching _ _ _ | .empty _ => by
      simp [writeBranch]

theorem inner_default : (statement : Statement) → Inner statement.writeDefault
  | .conditional _ _ chosen _ => by simp [writeDefault, inner_statement chosen]
  | .expression _ | .variable _ _ | .function _ _ | .pattern _ _ | .compound _ _
  | .loop _ _ _ | .skip _ | .stop _ | .giveBack _ _ | .matching _ _ _ | .empty _ => by
      simp [writeDefault]

end

theorem inner_unparse (program : Statement) : Inner program.unparse := by
  cases program with
  | compound span children => exact inner_sequence children
  | _ => exact inner_statement _

/-! ## Streams -/

/-- Tokens with the lexemes of a program and the end of the source behind them. -/
theorem ofRun_tokens {run : TokenRun} {lexemes : List Lexeme} (inner : Inner lexemes)
    (written : (run.tokens.filter (·.lexeme.isSignificant)).map Token.lexeme =
      lexemes ++ [.endOfSource]) :
    (TokenStream.ofRun run).tokens.map Token.lexeme = lexemes := by
  have before : (TokenStream.ofRun run).tokens =
      (run.tokens.filter (·.lexeme.isSignificant)).filter (·.lexeme.isInner) := by
    rw [List.filter_filter]
    refine List.filter_congr fun token _ => ?_
    cases significant : token.lexeme.isSignificant <;>
      simp [Lexeme.isInner, Token.kind, significant]
  calc (TokenStream.ofRun run).tokens.map Token.lexeme
    _ = ((run.tokens.filter (·.lexeme.isSignificant)).map Token.lexeme).filter
          Lexeme.isInner := by
        rw [before, List.filter_map]
        rfl
    _ = lexemes := by
        rw [written, List.filter_append, List.filter_eq_self.mpr inner]
        simp [Lexeme.isInner, Lexeme.kind]

theorem ofRun_ending {run : TokenRun} (complete : run.failure = none) :
    (TokenStream.ofRun run).ending = .endOfSource run.finalPosition := by
  simp only [TokenStream.ofRun, complete]

private theorem program_of_stream {stream : TokenStream} {program : Statement}
    (read : stream.program = .ok program) :
    ∃ rest, Grammar.program (stream.tokens.length + 1) stream.ending stream.tokens =
      .ok (program, rest) := by
  obtain ⟨tokens, ending⟩ := stream
  have mapped : (Grammar.program (tokens.length + 1) ending tokens).map Prod.fst =
      .ok program := by
    cases ending with
    | endOfSource place => exact read
    | broken error =>
        cases tokens with
        | nil => cases read
        | cons token tokens => exact read
  change ∃ rest, Grammar.program (tokens.length + 1) ending tokens = .ok (program, rest)
  cases given : Grammar.program (tokens.length + 1) ending tokens with
  | error error =>
      rw [given] at mapped
      cases mapped
  | ok result =>
      rw [given] at mapped
      cases mapped
      exact ⟨result.2, rfl⟩

/-- A program that was read is a sequence that can be written, with no more
parentheses than were read. -/
theorem program_legible {stream : TokenStream} {program : Statement}
    (read : stream.program = .ok program) :
    ∃ place children, program = .compound place children ∧
      (∀ child ∈ children, child.ReadableChild) ∧
      openings program.unparse ≤ opened stream.tokens := by
  obtain ⟨rest, given⟩ := program_of_stream read
  obtain ⟨place, children, rfl, areReadable, enough⟩ := program_gives _ _ given
  refine ⟨place, children, rfl, areReadable, ?_⟩
  rw [Statement.unparse, Statement.writeAll_eq]
  exact enough

end Syntax

open Syntax

/-- A program that was read from a source is written with lexemes that the grammar
sees.  Reading tokens with these lexemes, and whatever the grammar does not see in
between, gives the program again, up to positions.  No tokens that are read as the
program have fewer parentheses. -/
theorem unparsed_programs_are_read_back {limits : Limits} {source : String} {program : Statement}
    (read : parse limits source = .ok program) :
    (∀ lexeme ∈ program.unparse, lexeme.isSignificant = true ∧ lexeme ≠ .endOfSource) ∧
      (∀ run : TokenRun, run.failure = none →
        (run.tokens.filter (·.lexeme.isSignificant)).map Token.lexeme =
          program.unparse ++ [.endOfSource] →
        ∃ result, (TokenStream.ofRun run).program = .ok result ∧
          result.unplaced = program.unplaced) ∧
      ∀ (stream : TokenStream) (result : Statement), stream.program = .ok result →
        result.unplaced = program.unplaced →
        program.unparse.count (.mark .openParenthesis) ≤
          (stream.tokens.map Token.lexeme).count (.mark .openParenthesis) := by
  obtain ⟨place, children, isSequence, areReadable, -⟩ := program_legible read
  refine ⟨?_, ?_, ?_⟩
  · intro lexeme isWritten
    have isInner := inner_unparse program lexeme isWritten
    obtain ⟨significant, other⟩ := Bool.and_eq_true_iff.mp isInner
    refine ⟨significant, ?_⟩
    rintro rfl
    cases other
  · intro run complete written
    have lexemes := ofRun_tokens (inner_unparse program) written
    have restored : ∃ result, program.Restored result ∧
        Grammar.program ((TokenStream.ofRun run).tokens.length + 1)
          (.endOfSource run.finalPosition) (TokenStream.ofRun run).tokens = .ok (result, []) := by
      subst isSequence
      rw [Statement.unparse, Statement.writeAll_eq] at lexemes
      exact program_restores areReadable lexemes (Nat.lt_succ_self _)
    obtain ⟨result, same, given⟩ := restored
    refine ⟨result, ?_, same⟩
    unfold TokenStream.program
    rw [ofRun_ending complete]
    simp only [given]
    rfl
  · intro stream result streamRead same
    obtain ⟨-, -, -, -, enough⟩ := program_legible streamRead
    have written : result.unparse = program.unparse := by
      rw [← result.unparse_unplaced, same, program.unparse_unplaced]
    rw [written] at enough
    exact enough

/-- A loop over a variable of its own, with a difference as its body. -/
def differenceLoop : Statement :=
  .compound ⟨1, 1⟩ [.compound ⟨1, 1⟩
    [.variable ⟨⟨1, 5⟩, false, .fact, "a"⟩ none,
      .loop ⟨1, 12⟩ (.identifier ⟨1, 20⟩ "b")
        (.expression (.binary ⟨1, 27⟩ (.arithmetic .subtract) (.identifier ⟨1, 27⟩ "c")
          (.binary ⟨1, 32⟩ (.arithmetic .subtract) (.identifier ⟨1, 32⟩ "d")
            (.identifier ⟨1, 36⟩ "e"))))]]

/-- The parentheses around the condition are not written again, and those around
the difference are. -/
theorem difference_loop_is_read_back :
    parse .standard "FOR FACT a WHILE ((b)) DO c - (d - e);" = .ok differenceLoop ∧
      ∃ result, parse .standard "BEGIN FACT a; WHILE b DO c - (d - e); END" = .ok result ∧
        result.unplaced = differenceLoop.unplaced := by
  have read : parse .standard "FOR FACT a WHILE ((b)) DO c - (d - e);" = .ok differenceLoop := rfl
  refine ⟨read, ?_⟩
  exact (unparsed_programs_are_read_back read).2.1
    (TokenRun.ofSource .standard "BEGIN FACT a; WHILE b DO c - (d - e); END") rfl rfl

end Plainspoken
