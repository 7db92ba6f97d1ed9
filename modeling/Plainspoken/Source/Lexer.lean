import Plainspoken.Source.Body

/-!
# Splitting a source into tokens

From every place of a source the first rule that recognises the character
there gives the next token: end of source, line break, word, mark, number,
text, comment.  Reading stops at the end of the source or at the first place
where no rule applies or a literal is malformed.
-/

namespace Plainspoken

/-- The marks of a single character that no longer mark begins with. -/
def Mark.single? : Char → Option Mark
  | ';' => some .semicolon
  | ',' => some .comma
  | ':' => some .colon
  | '(' => some .openParenthesis
  | ')' => some .closeParenthesis
  | '-' => some .minus
  | '*' => some .star
  | '/' => some .slash
  | '%' => some .percent
  | _ => none

namespace Cursor

/-- The longer mark, moving on, when the cursor stands on its last character;
otherwise the shorter one. -/
def longerMark (cursor : Cursor) (last : Char) (longer shorter : Mark) : Mark × Cursor :=
  if cursor.isOn last then (longer, cursor.next) else (shorter, cursor)

/-- Reads what follows a first equals or exclamation sign: an equals sign has
to, and another one may. -/
def equality (cursor : Cursor) (longer shorter : Mark) :
    Except LexicalError (Option (Mark × Cursor)) :=
  if cursor.isOn '=' then .ok (some (cursor.next.longerMark '=' longer shorter))
  else .error (cursor.failure .unknownToken)

/-- Reads the longest mark under the cursor, if one begins there. -/
def mark (cursor : Cursor) : Except LexicalError (Option (Mark × Cursor)) :=
  match cursor.current with
  | none => .ok none
  | some first =>
      match Mark.single? first with
      | some single => .ok (some (single, cursor.next))
      | none =>
          match first with
          | '+' => .ok (some (cursor.next.longerMark '+' .doublePlus .plus))
          | '?' => .ok (some (cursor.next.longerMark '?' .doubleQuestion .question))
          | '<' => .ok (some (cursor.next.longerMark '=' .lessEqual .less))
          | '>' => .ok (some (cursor.next.longerMark '=' .greaterEqual .greater))
          | '=' => cursor.next.equality .equalText .equal
          | '!' => cursor.next.equality .notEqualText .notEqual
          | _ => .ok none

/-- Reads the lexeme under the cursor, which is neither at the end of the
source nor on a line break. -/
def lexeme (limits : Limits) (cursor : Cursor) :
    Except LexicalError (Lexeme × Cursor) := do
  if let some found ← cursor.word limits then
    return found
  if let some (mark, rest) ← cursor.mark then
    return (.mark mark, rest)
  if let some (number, rest) ← cursor.numberLiteral limits then
    return (.number number, rest)
  if let some found ← cursor.delimitedBody limits .text then
    return found
  if let some found ← cursor.delimitedBody limits .comment then
    return found
  .error (cursor.failure .unknownToken)

def nextToken (limits : Limits) (cursor : Cursor) :
    Except LexicalError (Token × Cursor) :=
  let start := cursor.restartBuffer.skipBlanks
  if start.atEnd then .ok (⟨.endOfSource, start.position⟩, start)
  else
    match start.takeLineBreak? with
    | some rest => .ok (⟨.lineBreak, start.position⟩, rest)
    | none => do
        let (lexeme, rest) ← start.lexeme limits
        return (⟨lexeme, start.position⟩, rest)

end Cursor

/-- The tokens read from a source, and the failure that ended the reading
before the end of the source, if there was one. -/
structure TokenRun where
  tokens : List Token
  failure : Option LexicalError
  deriving DecidableEq

/-- Reads tokens up to the end of the source or the first failure, at most a
given number of them. -/
def Cursor.tokenRun (limits : Limits) : Nat → Cursor → TokenRun
  | 0, _ => ⟨[], none⟩
  | budget + 1, cursor =>
      match cursor.nextToken limits with
      | .error error => ⟨[], some error⟩
      | .ok (token, rest) =>
          if token.lexeme = .endOfSource then ⟨[token], none⟩
          else
            let run := Cursor.tokenRun limits budget rest
            ⟨token :: run.tokens, run.failure⟩

namespace TokenRun

/-- Reads the tokens of a source.  Every token but the last takes a character,
so there is at most one more than there are characters. -/
def ofSource (limits : Limits) (source : String) : TokenRun :=
  let cursor := Cursor.ofSource source
  cursor.tokenRun limits (cursor.remaining.length + 1)

/-- All tokens of a source, or the failure that cut the reading short. -/
def complete (run : TokenRun) : Except LexicalError (List Token) :=
  match run.failure with
  | none => .ok run.tokens
  | some error => .error error

/-- Where the cursor stood when the reading ended. -/
def finalPosition (run : TokenRun) : Span :=
  match run.failure with
  | some error => error.span
  | none => (run.tokens.getLast?.map Token.span).getD .firstCharacter

end TokenRun

/-- Splits a source into its tokens, the end of the source included. -/
def tokenize (limits : Limits) (source : String) : Except LexicalError (List Token) :=
  (TokenRun.ofSource limits source).complete

end Plainspoken
