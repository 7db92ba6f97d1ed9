import Plainspoken.Token

/-!
# The documented grammar

The grammar of the language as a table of rules.  The right-hand side of a rule
is a form: terminals and other symbols in sequence, as alternatives, repeated or
optional.  A form derives sequences of tokens, and what a program may be is what
its symbol derives.

One condition goes beyond the rules: the parameters of a function have distinct
names.
-/

namespace Plainspoken

namespace Syntax

/-- The symbols that have rules of their own. -/
inductive Nonterminal where
  | program
  | sequence
  | compound
  | statement
  | expressionStatement
  | conditional
  | forLoop
  | whileLoop
  | jump
  | matching
  | empty
  | matchBlock
  | matchBranch
  | declaration
  | variableDeclaration
  | function
  | pattern
  | declarator
  | type
  | returnType
  | expression
  | assignment
  | pipe
  | ternary
  | disjunction
  | conjunction
  | equality
  | relation
  | addition
  | multiplication
  | unary
  | noneTest
  | call
  | literal
  deriving DecidableEq

/-- The right-hand side of a rule. -/
inductive Form where
  /-- A token of a kind. -/
  | token (kind : TokenKind)
  /-- Whatever a symbol stands for. -/
  | symbol (nonterminal : Nonterminal)
  | nothing
  | both (first second : Form)
  | never
  | either (first second : Form)
  | repeated (form : Form)
  /-- Only those tokens that also pass a check. -/
  | checked (check : List Token → Bool) (form : Form)

namespace Form

def word (keyword : Keyword) : Form :=
  token (.keyword keyword)

def mark (symbol : Mark) : Form :=
  token (.mark symbol)

/-- Several forms, one after another. -/
def inOrder : List Form → Form
  | [] => nothing
  | form :: forms => both form (inOrder forms)

/-- One of several forms. -/
def oneOf : List Form → Form
  | [] => never
  | form :: forms => either form (oneOf forms)

/-- Several forms, one after another, or nothing. -/
def optional (forms : List Form) : Form :=
  either (inOrder forms) nothing

/-- One form or more, with separators between them. -/
def listed (form separator : Form) : Form :=
  inOrder [form, repeated (inOrder [separator, form])]

end Form

def names (tokens : List Token) : List String :=
  tokens.filterMap fun token =>
    match token.lexeme with
    | .identifier name => some name
    | _ => none

/-- Whether no identifier occurs twice among some tokens. -/
def namesDistinct (tokens : List Token) : Bool :=
  decide (names tokens).Nodup

open Form

/-- The rules of the language. -/
def rule : Nonterminal → Form
  | .program => inOrder [symbol .sequence, token .endOfSource]
  | .sequence => repeated (oneOf [symbol .declaration, symbol .statement])
  | .compound => inOrder [word .beginWord, symbol .sequence, word .endWord]
  | .statement =>
      oneOf [symbol .compound, symbol .expressionStatement, symbol .conditional,
        symbol .forLoop, symbol .whileLoop, symbol .jump, symbol .matching, symbol .empty]
  | .expressionStatement => inOrder [symbol .expression, mark .semicolon]
  | .conditional =>
      inOrder [word .ifWord, symbol .expression, word .doWord, symbol .statement,
        optional [word .elseWord, symbol .statement]]
  | .forLoop => inOrder [word .forWord, symbol .variableDeclaration, symbol .whileLoop]
  | .whileLoop =>
      inOrder [word .whileWord, symbol .expression, word .doWord, symbol .statement]
  | .jump =>
      inOrder [oneOf [word .skipWord, word .stopWord,
          inOrder [word .returnWord, optional [symbol .expression]]],
        mark .semicolon]
  | .matching =>
      inOrder [word .matchWord, word .withWord, symbol .expression, symbol .matchBlock]
  | .empty => mark .semicolon
  | .matchBlock =>
      inOrder [word .beginWord, repeated (symbol .matchBranch), word .defaultWord,
        symbol .statement, mark .comma, word .endWord]
  | .matchBranch => inOrder [symbol .expression, word .doWord, symbol .statement, mark .comma]
  | .declaration =>
      oneOf [inOrder [symbol .variableDeclaration, mark .semicolon], symbol .function,
        symbol .pattern]
  | .variableDeclaration =>
      inOrder [symbol .declarator, optional [word .isWord, symbol .expression]]
  | .function =>
      inOrder [word .functionWord, optional [word .overrideWord], token .identifier,
        optional [word .withWord,
          checked namesDistinct (listed (symbol .declarator) (mark .comma))],
        word .returnsWord, symbol .returnType, symbol .statement]
  | .pattern =>
      inOrder [word .patternWord, optional [word .overrideWord], token .identifier,
        word .withWord, symbol .declarator, oneOf [symbol .matchBlock, mark .semicolon]]
  | .declarator => inOrder [optional [word .mutableWord], symbol .type, token .identifier]
  | .type => oneOf [word .numberWord, word .textWord, word .factWord]
  | .returnType => oneOf [symbol .type, word .nothingWord]
  | .expression => symbol .assignment
  | .assignment => listed (symbol .pipe) (word .isWord)
  | .pipe =>
      inOrder [symbol .ternary, repeated (oneOf
        [inOrder [word .thenWord, symbol .ternary,
            optional [word .otherwiseWord, symbol .ternary]],
          inOrder [word .otherwiseWord, symbol .ternary]])]
  | .ternary =>
      inOrder [symbol .disjunction, repeated (inOrder [mark .question, symbol .disjunction,
        optional [mark .colon, symbol .disjunction]])]
  | .disjunction => listed (symbol .conjunction) (oneOf [word .orWord])
  | .conjunction => listed (symbol .equality) (oneOf [word .andWord])
  | .equality =>
      listed (symbol .relation)
        (oneOf [mark .equal, mark .notEqual, mark .equalText, mark .notEqualText])
  | .relation =>
      listed (symbol .addition)
        (oneOf [mark .greater, mark .greaterEqual, mark .less, mark .lessEqual])
  | .addition =>
      listed (symbol .multiplication) (oneOf [mark .plus, mark .minus, mark .doublePlus])
  | .multiplication =>
      listed (symbol .unary) (oneOf [mark .star, mark .slash, mark .percent])
  | .unary => inOrder [optional [oneOf [mark .minus, word .notWord]], symbol .noneTest]
  | .noneTest =>
      inOrder [oneOf [symbol .literal, token .identifier,
          inOrder [mark .openParenthesis, symbol .expression, mark .closeParenthesis],
          symbol .call],
        optional [mark .doubleQuestion]]
  | .call =>
      inOrder [word .callWord, token .identifier,
        optional [word .withWord, listed (symbol .expression) (mark .comma)], word .nowWord]
  | .literal => oneOf [token .number, token .text, token .fact, word .noneWord]

/-- The tokens that a form derives. -/
inductive Derives : Form → List Token → Prop where
  | token {kind : TokenKind} {token : Token} (same : token.kind = kind) :
      Derives (.token kind) [token]
  | symbol {nonterminal : Nonterminal} {tokens : List Token}
      (body : Derives (rule nonterminal) tokens) : Derives (.symbol nonterminal) tokens
  | nothing : Derives .nothing []
  | both {first second : Form} {before after : List Token} (left : Derives first before)
      (right : Derives second after) : Derives (.both first second) (before ++ after)
  | left {first second : Form} {tokens : List Token} (left : Derives first tokens) :
      Derives (.either first second) tokens
  | right {first second : Form} {tokens : List Token} (right : Derives second tokens) :
      Derives (.either first second) tokens
  | done {form : Form} : Derives (.repeated form) []
  | again {form : Form} {before after : List Token} (once : Derives form before)
      (rest : Derives (.repeated form) after) : Derives (.repeated form) (before ++ after)
  | checked {check : List Token → Bool} {form : Form} {tokens : List Token}
      (body : Derives form tokens) (passed : check tokens = true) :
      Derives (.checked check form) tokens

/-! ## Taking derivations apart -/

section Inversion

variable {tokens : List Token}

@[simp]
theorem derives_token_iff {kind : TokenKind} :
    Derives (.token kind) tokens ↔ ∃ token : Token, tokens = [token] ∧ token.kind = kind := by
  constructor
  · intro derived
    cases derived with
    | token same => exact ⟨_, rfl, same⟩
  · rintro ⟨token, rfl, same⟩
    exact .token same

@[simp]
theorem derives_symbol_iff {nonterminal : Nonterminal} :
    Derives (.symbol nonterminal) tokens ↔ Derives (rule nonterminal) tokens := by
  constructor
  · intro derived
    cases derived with
    | symbol body => exact body
  · exact .symbol

@[simp]
theorem derives_nil_iff : Derives (inOrder []) tokens ↔ tokens = [] := by
  constructor
  · intro derived
    cases derived with
    | nothing => rfl
  · rintro rfl
    exact .nothing

@[simp]
theorem derives_cons_iff {form : Form} {forms : List Form} :
    Derives (inOrder (form :: forms)) tokens ↔
      ∃ before after, tokens = before ++ after ∧ Derives form before ∧
        Derives (inOrder forms) after := by
  constructor
  · intro derived
    cases derived with
    | both left right => exact ⟨_, _, rfl, left, right⟩
  · rintro ⟨before, after, rfl, left, right⟩
    exact .both left right

@[simp]
theorem not_derives_never : ¬ Derives (oneOf []) tokens := by
  intro derived
  cases derived

@[simp]
theorem derives_oneOf_cons_iff {form : Form} {forms : List Form} :
    Derives (oneOf (form :: forms)) tokens ↔
      Derives form tokens ∨ Derives (oneOf forms) tokens := by
  constructor
  · intro derived
    cases derived with
    | left derived => exact .inl derived
    | right derived => exact .inr derived
  · rintro (derived | derived)
    · exact .left derived
    · exact .right derived

@[simp]
theorem derives_optional_iff {forms : List Form} :
    Derives (optional forms) tokens ↔ Derives (inOrder forms) tokens ∨ tokens = [] := by
  constructor
  · intro derived
    cases derived with
    | left derived => exact .inl derived
    | right derived =>
        cases derived with
        | nothing => exact .inr rfl
  · rintro (derived | rfl)
    · exact .left derived
    · exact .right .nothing

theorem derives_token_cons_iff {kind : TokenKind} {forms : List Form} :
    Derives (inOrder (.token kind :: forms)) tokens ↔
      ∃ (token : Token) (after : List Token), tokens = token :: after ∧ token.kind = kind ∧
        Derives (inOrder forms) after := by
  rw [derives_cons_iff]
  constructor
  · rintro ⟨before, after, rfl, beforeDerived, afterDerived⟩
    obtain ⟨token, rfl, same⟩ := derives_token_iff.mp beforeDerived
    exact ⟨token, after, rfl, same, afterDerived⟩
  · rintro ⟨token, after, rfl, same, afterDerived⟩
    exact ⟨[token], after, rfl, .token same, afterDerived⟩

theorem derives_only_iff {form : Form} :
    Derives (inOrder [form]) tokens ↔ Derives form tokens := by
  simp

theorem derives_oneOf_tokens_iff {kinds : List TokenKind} :
    Derives (oneOf (kinds.map .token)) tokens ↔
      ∃ token : Token, tokens = [token] ∧ token.kind ∈ kinds := by
  induction kinds with
  | nil => simp
  | cons kind kinds ih =>
      rw [List.map_cons, derives_oneOf_cons_iff, ih, derives_token_iff]
      simp only [← exists_or, ← and_or_left, List.mem_cons]

theorem derives_repeated_iff {form : Form} :
    Derives (.repeated form) tokens ↔
      tokens = [] ∨ ∃ before after, tokens = before ++ after ∧ Derives form before ∧
        Derives (.repeated form) after := by
  constructor
  · intro derived
    cases derived with
    | done => exact .inl rfl
    | again once rest => exact .inr ⟨_, _, rfl, once, rest⟩
  · rintro (rfl | ⟨before, after, rfl, once, rest⟩)
    · exact .done
    · exact .again once rest

theorem derives_oneOf_only_iff {form : Form} :
    Derives (oneOf [form]) tokens ↔ Derives form tokens := by
  simp

theorem derives_leading_iff {lead : Form} {forms : List Form} :
    Derives (oneOf [inOrder (lead :: forms), inOrder forms]) tokens ↔
      Derives (inOrder (optional [lead] :: forms)) tokens := by
  rw [derives_oneOf_cons_iff, derives_oneOf_cons_iff, or_iff_left not_derives_never,
    derives_cons_iff, derives_cons_iff]
  constructor
  · rintro (⟨before, after, rfl, beforeDerived, afterDerived⟩ | derived)
    · exact ⟨before, after, rfl, .left (derives_only_iff.mpr beforeDerived), afterDerived⟩
    · exact ⟨[], tokens, rfl, .right .nothing, derived⟩
  · rintro ⟨before, after, rfl, beforeDerived, afterDerived⟩
    rcases derives_optional_iff.mp beforeDerived with beforeDerived | rfl
    · exact .inl ⟨before, after, rfl, derives_only_iff.mp beforeDerived, afterDerived⟩
    · exact .inr afterDerived

/-- A list ends after its first form or goes on, after a separator, with another
list. -/
theorem derives_listed_iff {form separator : Form} :
    Derives (listed form separator) tokens ↔
      ∃ first others, tokens = first ++ others ∧ Derives form first ∧
        (others = [] ∨ ∃ between list, others = between ++ list ∧ Derives separator between ∧
          Derives (listed form separator) list) := by
  simp only [listed, derives_cons_iff, derives_nil_iff]
  constructor
  · rintro ⟨first, _, rfl, firstDerived, others, _, rfl, othersDerived, rfl⟩
    refine ⟨first, others, by simp, firstDerived, ?_⟩
    rcases derives_repeated_iff.mp othersDerived with rfl | ⟨before, after, rfl, once, rest⟩
    · exact .inl rfl
    · obtain ⟨between, next, rfl, betweenDerived, nextDerived⟩ := derives_cons_iff.mp once
      exact .inr ⟨between, next ++ after, by simp, betweenDerived, next, after, rfl,
        derives_only_iff.mp nextDerived, after, [], by simp, rest, rfl⟩
  · rintro ⟨first, others, rfl, firstDerived, rfl | ⟨between, list, rfl, betweenDerived, list⟩⟩
    · exact ⟨first, [], rfl, firstDerived, [], [], rfl, .done, rfl⟩
    · obtain ⟨next, _, rfl, nextDerived, rest, _, rfl, restDerived, rfl⟩ := list
      refine ⟨first, between ++ (next ++ rest), by simp, firstDerived,
        between ++ (next ++ rest), [], by simp, ?_, rfl⟩
      rw [← List.append_assoc]
      exact .again (.both betweenDerived (derives_only_iff.mpr nextDerived)) restDerived

end Inversion

end Syntax

end Plainspoken
