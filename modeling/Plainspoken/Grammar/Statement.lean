import Plainspoken.Grammar.Expression
import Plainspoken.Tree.Statement

/-!
# The grammar of statements and declarations

A program is a sequence of declarations and statements up to the end of the
source.  The first token of a statement tells which rule reads it.  `fuel`
bounds the length of sequences; the rule for nested statements is given from
outside.
-/

namespace Plainspoken

namespace Grammar

open Rule

/-- A rule for statements that may not apply. -/
abbrev StatementRule := Rule (Option Statement)

/-- The type that a token names, for bindings. -/
def valueType? : Lexeme → Option ValueType
  | .keyword .numberWord => some .number
  | .keyword .textWord => some .text
  | .keyword .factWord => some .fact
  | _ => none

/-- Reads `NUMBER | TEXT | FACT`. -/
def valueType : Rule (Option ValueType) := do
  match valueType? (← current).lexeme with
  | none => return none
  | some type =>
      advance
      return some type

/-- Reads `NOTHING | NUMBER | TEXT | FACT`, which has to stand there. -/
def returnType : Rule ValueType := do
  if ← accept (.keyword .nothingWord) then
    return .nothing
  else
    require .returnType valueType

/-- Reads `[MUTABLE] type identifier`.  After `MUTABLE` a type has to stand. -/
def declarator : Rule (Option Declarator) := do
  let span ← position
  let isMutable ← accept (.keyword .mutableWord)
  match ← valueType with
  | some type => return some ⟨span, isMutable, type, ← identifier⟩
  | none =>
      if isMutable then
        fail (.expectedToken
          [.keyword .numberWord, .keyword .textWord, .keyword .factWord])
      else
        return none

section Sequences

variable (fuel : Nat) (nested : StatementRule)

def requiredStatement : Rule Statement :=
  require .statement nested

/-- Reads `declarator [IS expression]`. -/
def variableDeclaration : StatementRule := do
  match ← declarator with
  | none => return none
  | some declarator =>
      if ← accept (.keyword .isWord) then
        return some (.variable declarator (some (← requiredExpression fuel)))
      else
        return some (.variable declarator none)

/-- Reads `declarator (, declarator)*` for a function of a given name, whose
parameters before them are already known.  Two parameters of one name fail at
the token after the second one. -/
def parametersFrom (function : String) : Nat → List Declarator → Rule (List Declarator)
  | 0, _ => fail (.expectedSymbol .declarator)
  | budget + 1, known => do
      let parameter ← require .declarator declarator
      if known.any (·.name == parameter.name) then
        fail (.duplicateParameter parameter.name function)
      else if ← accept (.mark .comma) then
        parametersFrom function budget (known ++ [parameter])
      else
        return known ++ [parameter]

/-- Reads `[WITH declarator (, declarator)*]`. -/
def parameters (function : String) : Rule (List Declarator) := do
  if ← accept (.keyword .withWord) then
    parametersFrom function fuel []
  else
    return []

/-- Reads `FUNCTION [OVERRIDE] identifier [WITH parameters] RETURNS type statement`. -/
def functionDeclaration : StatementRule := do
  let span ← position
  if ← accept (.keyword .functionWord) then
    let overrides ← accept (.keyword .overrideWord)
    let name ← identifier
    let parameters ← parameters fuel name
    expect (.keyword .returnsWord)
    let returns ← returnType
    let body ← requiredStatement nested
    return some (.function ⟨span, name, overrides, parameters, returns⟩ body)
  else
    return none

/-- Reads `expression DO statement ,` as a conditional. -/
def matchBranch : StatementRule := do
  let span ← position
  match ← expression fuel with
  | none => return none
  | some condition =>
      expect (.keyword .doWord)
      let statement ← requiredStatement nested
      expect (.mark .comma)
      return some (.conditional span condition statement none)

/-- Reads `BEGIN branch* DEFAULT statement , END`.  The default branch is a
conditional on a fact that holds. -/
def matchBlock : StatementRule := do
  if ← accept (.keyword .beginWord) then
    let span ← position
    let branches ← many fuel (matchBranch fuel nested)
    expect (.keyword .defaultWord)
    let defaultSpan ← position
    let statement ← requiredStatement nested
    expect (.mark .comma)
    expect (.keyword .endWord)
    let condition := Expression.literal defaultSpan (.fact true)
    return some (.compound span
      (branches ++ [.conditional defaultSpan condition statement none]))
  else
    return none

/-- Reads `PATTERN [OVERRIDE] identifier WITH declarator (block | ;)`. -/
def patternDeclaration : StatementRule := do
  let span ← position
  if ← accept (.keyword .patternWord) then
    let overrides ← accept (.keyword .overrideWord)
    let name ← identifier
    expect (.keyword .withWord)
    let parameter ← require .declarator declarator
    let signature : PatternSignature := ⟨span, name, overrides, parameter⟩
    match ← matchBlock fuel nested with
    | some block => return some (.pattern signature block)
    | none =>
        let endSpan ← position
        expect (.mark .semicolon)
        return some (.pattern signature (.empty endSpan))
  else
    return none

def variableStatement : StatementRule := do
  match ← variableDeclaration fuel with
  | none => return none
  | some declaration =>
      expect (.mark .semicolon)
      return some declaration

def declaration : StatementRule :=
  firstApplicable [variableStatement fuel, functionDeclaration fuel nested,
    patternDeclaration fuel nested]

/-- Reads declarations and statements as long as there are some. -/
def sequence : Rule Statement := do
  let span ← position
  let children ← many fuel (firstApplicable [declaration fuel nested, nested])
  return .compound span children

/-- Reads `BEGIN sequence END`. -/
def block : StatementRule := do
  if ← accept (.keyword .beginWord) then
    let body ← sequence fuel nested
    expect (.keyword .endWord)
    return some body
  else
    return none

/-- Reads `expression ;`. -/
def expressionStatement : StatementRule := do
  match ← expression fuel with
  | none => return none
  | some content =>
      expect (.mark .semicolon)
      return some (.expression content)

/-- Reads `statement [ELSE statement]` under a condition. -/
def branches (span : Span) (condition : Expression) : StatementRule := do
  let positive ← requiredStatement nested
  if ← accept (.keyword .elseWord) then
    return some (.conditional span condition positive (some (← requiredStatement nested)))
  else
    return some (.conditional span condition positive none)

/-- Reads `IF expression DO statement [ELSE statement]`. -/
def conditional : StatementRule := do
  let span ← position
  if ← accept (.keyword .ifWord) then
    let condition ← requiredExpression fuel
    expect (.keyword .doWord)
    branches nested span condition
  else
    return none

/-- Reads `WHILE expression DO statement`. -/
def whileLoop : StatementRule := do
  let span ← position
  if ← accept (.keyword .whileWord) then
    let condition ← requiredExpression fuel
    expect (.keyword .doWord)
    let body ← requiredStatement nested
    return some (.loop span condition body)
  else
    return none

/-- Reads `FOR declaration loop` as a block, so that the variable of the loop
lives in a scope of its own. -/
def forLoop : StatementRule := do
  let span ← position
  if ← accept (.keyword .forWord) then
    let declaration ← require .variableDeclaration (variableDeclaration fuel)
    let loop ← require .whileStatement (whileLoop fuel nested)
    return some (.compound span [declaration, loop])
  else
    return none

/-- Reads `SKIP ; | STOP ; | RETURN [expression] ;`. -/
def jump : StatementRule := do
  let token ← current
  match token.lexeme with
  | .keyword .skipWord =>
      advance
      expect (.mark .semicolon)
      return some (.skip token.span)
  | .keyword .stopWord =>
      advance
      expect (.mark .semicolon)
      return some (.stop token.span)
  | .keyword .returnWord =>
      advance
      let value ← expression fuel
      expect (.mark .semicolon)
      return some (.giveBack token.span value)
  | _ => return none

/-- Reads `MATCH WITH expression block`. -/
def matching : StatementRule := do
  let span ← position
  if ← accept (.keyword .matchWord) then
    expect (.keyword .withWord)
    let subject ← requiredExpression fuel
    let body ← require .matchBlock (matchBlock fuel nested)
    return some (.matching span subject body)
  else
    return none

/-- Reads `;`. -/
def emptyStatement : StatementRule := do
  let span ← position
  if ← accept (.mark .semicolon) then
    return some (.empty span)
  else
    return none

/-- Reads one statement with the first rule that applies. -/
def statementWith : StatementRule :=
  firstApplicable [block fuel nested, expressionStatement fuel,
    conditional fuel nested, forLoop fuel nested, whileLoop fuel nested,
    jump fuel, matching fuel nested, emptyStatement]

end Sequences

/-- A statement; `fuel` bounds the nesting and the length of sequences. -/
def statement : Nat → StatementRule
  | 0 => return none
  | fuel + 1 => statementWith (fuel + 1) (statement fuel)

/-- A program: a sequence and the end of the source. -/
def program (fuel : Nat) : Rule Statement := do
  let body ← sequence fuel (statement fuel)
  expect .endOfSource
  return body

end Grammar

namespace TokenStream

/-- Reads a whole stream as a program.  Nesting and chains cannot be longer
than the stream. -/
def program (stream : TokenStream) : Except BuildError Statement :=
  match stream.ending, stream.tokens with
  | .broken error, [] => .error (.lexical error)
  | ending, tokens =>
      (Grammar.program (tokens.length + 1) ending tokens).map Prod.fst

end TokenStream

/-- Reads a source as a program, or gives the first failure. -/
def parse (limits : Limits) (source : String) : Except BuildError Statement :=
  (TokenStream.ofSource limits source).program

end Plainspoken
