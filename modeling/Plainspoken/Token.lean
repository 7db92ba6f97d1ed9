import Plainspoken.Span
import Plainspoken.Value

/-!
# Tokens

The vocabulary of the language: punctuation and operator marks, keywords,
literals, identifiers, comments and line breaks, each with its spelling, the
name under which message catalogs list it, and its place in the source.
-/

namespace Plainspoken

/-- A punctuation or operator mark. -/
inductive Mark where
  | semicolon
  | comma
  | question
  | colon
  | openParenthesis
  | closeParenthesis
  | doublePlus
  | doubleQuestion
  | plus
  | minus
  | star
  | slash
  | percent
  | equal
  | notEqual
  | equalText
  | notEqualText
  | less
  | greater
  | lessEqual
  | greaterEqual
  deriving DecidableEq

namespace Mark

def all : List Mark := [
    .semicolon, .comma, .question, .colon, .openParenthesis, .closeParenthesis,
    .doublePlus, .doubleQuestion, .plus, .minus, .star, .slash, .percent, .equal,
    .notEqual, .equalText, .notEqualText, .less, .greater, .lessEqual, .greaterEqual]

theorem mem_all (mark : Mark) : mark ∈ all := by
  cases mark <;> simp [all]

def spelling : Mark → String
  | .semicolon => ";"
  | .comma => ","
  | .question => "?"
  | .colon => ":"
  | .openParenthesis => "("
  | .closeParenthesis => ")"
  | .doublePlus => "++"
  | .doubleQuestion => "??"
  | .plus => "+"
  | .minus => "-"
  | .star => "*"
  | .slash => "/"
  | .percent => "%"
  | .equal => "=="
  | .notEqual => "!="
  | .equalText => "==="
  | .notEqualText => "!=="
  | .less => "<"
  | .greater => ">"
  | .lessEqual => "<="
  | .greaterEqual => ">="

/-- The name under which a message catalog lists the mark. -/
def key : Mark → String
  | .semicolon => "Dot"
  | .comma => "Comma"
  | .question => "TernaryYes"
  | .colon => "TernaryNo"
  | .openParenthesis => "ParenOpen"
  | .closeParenthesis => "ParenClose"
  | .doublePlus => "Concatenate"
  | .doubleQuestion => "NoneTest"
  | .plus => "Add"
  | .minus => "Sub"
  | .star => "Mul"
  | .slash => "Div"
  | .percent => "Mod"
  | .equal => "Equal"
  | .notEqual => "NotEqual"
  | .equalText => "EqualText"
  | .notEqualText => "NotEqualText"
  | .less => "Less"
  | .greater => "Greater"
  | .lessEqual => "LessEqual"
  | .greaterEqual => "GreaterEqual"

end Mark

/-- A word that the grammar reserves for itself. -/
inductive Keyword where
  | andWord
  | beginWord
  | callWord
  | defaultWord
  | doWord
  | elseWord
  | endWord
  | factWord
  | forWord
  | functionWord
  | isWord
  | ifWord
  | matchWord
  | mutableWord
  | noneWord
  | nowWord
  | notWord
  | nothingWord
  | numberWord
  | orWord
  | otherwiseWord
  | overrideWord
  | patternWord
  | returnWord
  | returnsWord
  | skipWord
  | stopWord
  | textWord
  | thenWord
  | whileWord
  | withWord
  deriving DecidableEq

namespace Keyword

def all : List Keyword := [
    .andWord, .beginWord, .callWord, .defaultWord, .doWord, .elseWord, .endWord,
    .factWord, .forWord, .functionWord, .isWord, .ifWord, .matchWord, .mutableWord,
    .noneWord, .nowWord, .notWord, .nothingWord, .numberWord, .orWord, .otherwiseWord,
    .overrideWord, .patternWord, .returnWord, .returnsWord, .skipWord, .stopWord,
    .textWord, .thenWord, .whileWord, .withWord]

theorem mem_all (keyword : Keyword) : keyword ∈ all := by
  cases keyword <;> simp [all]

def spelling : Keyword → String
  | .andWord => "AND"
  | .beginWord => "BEGIN"
  | .callWord => "CALL"
  | .defaultWord => "DEFAULT"
  | .doWord => "DO"
  | .elseWord => "ELSE"
  | .endWord => "END"
  | .factWord => "FACT"
  | .forWord => "FOR"
  | .functionWord => "FUNCTION"
  | .isWord => "IS"
  | .ifWord => "IF"
  | .matchWord => "MATCH"
  | .mutableWord => "MUTABLE"
  | .noneWord => "NONE"
  | .nowWord => "NOW"
  | .notWord => "NOT"
  | .nothingWord => "NOTHING"
  | .numberWord => "NUMBER"
  | .orWord => "OR"
  | .otherwiseWord => "OTHERWISE"
  | .overrideWord => "OVERRIDE"
  | .patternWord => "PATTERN"
  | .returnWord => "RETURN"
  | .returnsWord => "RETURNS"
  | .skipWord => "SKIP"
  | .stopWord => "STOP"
  | .textWord => "TEXT"
  | .thenWord => "THEN"
  | .whileWord => "WHILE"
  | .withWord => "WITH"

/-- The name under which a message catalog lists the keyword. -/
def key : Keyword → String
  | .andWord => "And"
  | .beginWord => "Begin"
  | .callWord => "Call"
  | .defaultWord => "Default"
  | .doWord => "Do"
  | .elseWord => "Else"
  | .endWord => "End"
  | .factWord => "FactType"
  | .forWord => "For"
  | .functionWord => "Function"
  | .isWord => "Is"
  | .ifWord => "If"
  | .matchWord => "Match"
  | .mutableWord => "Mutable"
  | .noneWord => "None"
  | .nowWord => "Now"
  | .notWord => "Not"
  | .nothingWord => "NothingType"
  | .numberWord => "NumberType"
  | .orWord => "Or"
  | .otherwiseWord => "Otherwise"
  | .overrideWord => "Override"
  | .patternWord => "Pattern"
  | .returnWord => "Return"
  | .returnsWord => "Returns"
  | .skipWord => "Skip"
  | .stopWord => "Stop"
  | .textWord => "TextType"
  | .thenWord => "Then"
  | .whileWord => "While"
  | .withWord => "With"

def ofSpelling? (word : String) : Option Keyword :=
  all.find? fun keyword => keyword.spelling == word

end Keyword

/-- What a reserved word stands for. -/
inductive ReservedWord where
  /-- A keyword of the grammar. -/
  | keyword (word : Keyword)
  /-- One of the two facts. -/
  | fact (holds : Bool)
  /-- A name that the language binds by itself. -/
  | name
  deriving DecidableEq

/-- The name bound to the value that flows through a pipe. -/
def pipeName : String := "PIPE"

/-- The name bound to the subject of a match or pattern. -/
def subjectName : String := "VALUE"

/-- Looks a word up among the reserved ones; case counts. -/
def ReservedWord.ofSpelling? (word : String) : Option ReservedWord :=
  if word == "TRUE" then some (.fact true)
  else if word == "FALSE" then some (.fact false)
  else if word == pipeName || word == subjectName then some .name
  else (Keyword.ofSpelling? word).map .keyword

/-- The category of a token. -/
inductive TokenKind where
  | endOfSource
  | lineBreak
  | number
  | text
  | comment
  | fact
  | identifier
  | mark (symbol : Mark)
  | keyword (word : Keyword)
  deriving DecidableEq

namespace TokenKind

def all : List TokenKind :=
  [.endOfSource, .lineBreak, .number, .text, .comment, .fact, .identifier] ++
    Mark.all.map .mark ++ Keyword.all.map .keyword

/-- The name under which a message catalog lists the category. -/
def key : TokenKind → String
  | .endOfSource => "Etx"
  | .lineBreak => "Eol"
  | .number => "Number"
  | .text => "Text"
  | .comment => "Comment"
  | .fact => "Fact"
  | .identifier => "Identifier"
  | .mark symbol => symbol.key
  | .keyword word => word.key

/-- The category in words, or its spelling when it has only one. -/
def display : TokenKind → String
  | .endOfSource => "end of source"
  | .lineBreak => "end of line"
  | .number => "number"
  | .text => "text"
  | .comment => "comment"
  | .fact => "fact"
  | .identifier => "identifier"
  | .mark symbol => symbol.spelling
  | .keyword word => word.spelling

end TokenKind

/-- A token apart from its place: its category and what it carries. -/
inductive Lexeme where
  | endOfSource
  | lineBreak
  | number (amount : Float)
  | text (content : String)
  | comment (content : String)
  | fact (holds : Bool)
  | identifier (name : String)
  | mark (symbol : Mark)
  | keyword (word : Keyword)
  deriving DecidableEq

namespace Lexeme

def kind : Lexeme → TokenKind
  | .endOfSource => .endOfSource
  | .lineBreak => .lineBreak
  | .number _ => .number
  | .text _ => .text
  | .comment _ => .comment
  | .fact _ => .fact
  | .identifier _ => .identifier
  | .mark symbol => .mark symbol
  | .keyword word => .keyword word

/-- A lexeme as the author of the source would recognise it. -/
def display : Lexeme → String
  | .number amount => Number.text amount
  | .text content => "\"" ++ content ++ "\""
  | .comment content => content
  | .fact holds => Value.factText holds
  | .identifier name => name
  | other => other.kind.display

/-- The text that identifiers, texts and comments carry. -/
def text? : Lexeme → Option String
  | .text content | .comment content | .identifier content => some content
  | _ => none

/-- Whether the grammar sees the lexeme; line breaks and comments it does not. -/
def isSignificant : Lexeme → Bool
  | .lineBreak | .comment _ => false
  | _ => true

end Lexeme

/-- A lexeme and the position of its first character. -/
structure Token where
  lexeme : Lexeme
  span : Span
  deriving DecidableEq

namespace Token

def kind (token : Token) : TokenKind :=
  token.lexeme.kind

def display (token : Token) : String :=
  token.lexeme.display

end Token

end Plainspoken
