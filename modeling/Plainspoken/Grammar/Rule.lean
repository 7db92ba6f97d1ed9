import Plainspoken.Source.Lexer

/-!
# Grammar rules

The grammar reads significant tokens from left to right and decides by the
first one that it has not used.  A rule may not apply, which it shows by its
result; it may also fail, which ends the reading.

A lexical failure of the source counts when the last token before it is used.
-/

namespace Plainspoken

/-- What follows the last significant token. -/
inductive StreamEnd where
  | endOfSource (span : Span)
  | broken (error : LexicalError)
  deriving DecidableEq

/-- The significant tokens of a source and what follows them. -/
structure TokenStream where
  tokens : List Token
  ending : StreamEnd
  deriving DecidableEq

namespace TokenStream

/-- Keeps what the grammar sees of the tokens read from a source. -/
def ofRun (run : TokenRun) : TokenStream where
  tokens := run.tokens.filter fun token =>
    token.lexeme.isSignificant && token.kind != .endOfSource
  ending :=
    match run.failure with
    | some error => .broken error
    | none => .endOfSource run.finalPosition

def ofSource (limits : Limits) (source : String) : TokenStream :=
  ofRun (TokenRun.ofSource limits source)

end TokenStream

/-- A grammar rule: reads some of the tokens, or fails. -/
def Rule (α : Type) : Type :=
  StreamEnd → List Token → Except BuildError (α × List Token)

namespace Rule

/-- Reads nothing. -/
@[inline]
def succeed {α : Type} (result : α) : Rule α :=
  fun _ tokens => .ok (result, tokens)

/-- Reads with one rule, then with the rule that its result selects. -/
@[inline]
def andThen {α β : Type} (first : Rule α) (second : α → Rule β) : Rule β :=
  fun ending tokens =>
    match first ending tokens with
    | .ok (result, rest) => second result ending rest
    | .error error => .error error

instance : Monad Rule where
  pure := succeed
  bind := andThen

/-- The token that stands after all others. -/
def endToken : StreamEnd → Token
  | .endOfSource span => ⟨.endOfSource, span⟩
  | .broken error => ⟨.endOfSource, error.span⟩

def current : Rule Token :=
  fun ending tokens => .ok (tokens.headD (endToken ending), tokens)

def position : Rule Span := do
  return (← current).span

def advance : Rule Unit
  | .broken error, [_] => .error (.lexical error)
  | _, tokens => .ok ((), tokens.tail)

/-- Fails at the first token not yet used. -/
def fail {α : Type} (cause : GrammarCause) : Rule α := do
  let token ← current
  fun _ _ => .error (.grammar ⟨cause, token.span, token.display⟩)

/-- Uses a token of one of several kinds, if it stands there, and says which
one it was. -/
def acceptAny (kinds : List TokenKind) : Rule (Option TokenKind) := do
  let kind := (← current).kind
  if kinds.contains kind then
    advance
    return some kind
  else
    return none

/-- Uses a token of a kind, if it stands there, and says whether it did. -/
def accept (kind : TokenKind) : Rule Bool := do
  return (← acceptAny [kind]).isSome

/-- Uses a token of a kind, which has to stand there. -/
def expect (kind : TokenKind) : Rule Unit := do
  unless ← accept kind do
    fail (.expectedToken [kind])

/-- The result of a rule that has to apply. -/
def require {α : Type} (symbol : Symbol) (rule : Rule (Option α)) : Rule α := do
  match ← rule with
  | some result => return result
  | none => fail (.expectedSymbol symbol)

/-- Uses an identifier, which has to stand there. -/
def identifier : Rule String := do
  match (← current).lexeme with
  | .identifier name =>
      advance
      return name
  | _ => fail (.expectedSymbol .identifier)

def firstApplicable {α : Type} : List (Rule (Option α)) → Rule (Option α)
  | [] => return none
  | rule :: rules => do
      match ← rule with
      | some result => return some result
      | none => firstApplicable rules

/-- Applies a rule as often as it applies, at most a given number of times. -/
def many {α : Type} : Nat → Rule (Option α) → Rule (List α)
  | 0, _ => return []
  | fuel + 1, rule => do
      match ← rule with
      | none => return []
      | some result => return result :: (← many fuel rule)

end Rule

end Plainspoken
