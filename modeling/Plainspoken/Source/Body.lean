import Plainspoken.Character.Numeric
import Plainspoken.Source.NumberLiteral

/-!
# Texts, comments and words

Texts and comments are written between delimiters, with backslash escapes, and
may hold any character.  Words are runs of letters, digits and underscores.
Both are bounded in length: reading stops one item past the bound.
-/

namespace Plainspoken

namespace BodyKind

def delimiter : BodyKind → Char
  | .text => '"'
  | .comment => '#'

def limit (limits : Limits) : BodyKind → Nat
  | .text => limits.maxText
  | .comment => limits.maxComment

def lexeme : BodyKind → String → Lexeme
  | .text => .text
  | .comment => .comment

end BodyKind

namespace Cursor

def unescape? : Char → Option Char
  | 'a' => some (Char.ofNat 0x07)
  | 'b' => some (Char.ofNat 0x08)
  | 'f' => some (Char.ofNat 0x0C)
  | 'n' => some '\n'
  | 'r' => some '\r'
  | 't' => some '\t'
  | 'v' => some (Char.ofNat 0x0B)
  | '\\' => some '\\'
  | '\'' => some '\''
  | '"' => some '"'
  | '#' => some '#'
  | _ => none

/-- Reads one item of a body: a plain character, or a backslash and the
character it escapes. -/
def bodyItem (body : BodyKind) (cursor : Cursor) :
    Except LexicalError (Char × Cursor) :=
  match cursor.current with
  | none => .error (cursor.failure (.bodySuddenEnd body))
  | some '\\' =>
      let cursor := cursor.nextInBody
      match cursor.current with
      | none => .error (cursor.failure (.bodySuddenEnd body))
      | some escaped =>
          match unescape? escaped with
          | none => .error (cursor.failure (.unknownEscape escaped))
          | some character => .ok (character, cursor.nextInBody)
  | some character => .ok (character, cursor.nextInBody)

/-- Reads the items of a body up to its delimiter, at most a given number of
them. -/
def bodyItems (body : BodyKind) : Nat → Cursor → Except LexicalError (List Char × Cursor)
  | 0, cursor => .ok ([], cursor)
  | budget + 1, cursor =>
      if cursor.isOn body.delimiter then .ok ([], cursor)
      else do
        let (character, rest) ← bodyItem body cursor
        let (characters, rest) ← bodyItems body budget rest
        return (character :: characters, rest)

/-- Reads the text or comment under the cursor, if its delimiter stands there. -/
def delimitedBody (limits : Limits) (body : BodyKind) (cursor : Cursor) :
    Except LexicalError (Option (Lexeme × Cursor)) :=
  if cursor.isOn body.delimiter then do
    let limit := body.limit limits
    let (characters, rest) ← bodyItems body (limit + 1) cursor.nextInBody
    if limit < characters.length then
      .error (rest.failure (.bodyTooBig body limit))
    else
      return some (body.lexeme (String.ofList characters), rest.next)
  else .ok none

/-- Whether a character may begin a word. -/
def isWordStart (character : Char) : Bool :=
  Character.isAlphabetic character || character == '_'

def isWordPart (character : Char) : Bool :=
  isWordStart character || Character.isNumeric character

def wordParts : Nat → Cursor → List Char × Cursor
  | 0, cursor => ([], cursor)
  | budget + 1, cursor =>
      match cursor.current with
      | none => ([], cursor)
      | some character =>
          if isWordPart character then
            let (characters, rest) := wordParts budget cursor.next
            (character :: characters, rest)
          else ([], cursor)

/-- The lexeme that a word stands for. -/
def wordLexeme (word : String) : Lexeme :=
  match ReservedWord.ofSpelling? word with
  | some (.keyword keyword) => .keyword keyword
  | some (.fact holds) => .fact holds
  | some .name | none => .identifier word

def word (limits : Limits) (cursor : Cursor) :
    Except LexicalError (Option (Lexeme × Cursor)) :=
  if cursor.isOnClass isWordStart then
    let (characters, rest) := wordParts (limits.maxIdentifier + 1) cursor
    if limits.maxIdentifier < characters.length then
      .error (rest.failure (.identifierTooBig limits.maxIdentifier))
    else .ok (some (wordLexeme (String.ofList characters), rest))
  else .ok none

end Cursor

end Plainspoken
