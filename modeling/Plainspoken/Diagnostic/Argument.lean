import Plainspoken.Declarator
import Plainspoken.Token

/-!
# Arguments of reports

A report keeps what it talks about in structured form, so that a message
catalog can name grammar symbols and types in its own language.
-/

namespace Plainspoken

/-- What the grammar may expect at a token. -/
inductive Symbol where
  | token (kind : TokenKind)
  | expression
  | identifier
  | statement
  | whileStatement
  | declarator
  | variableDeclaration
  | matchBlock
  | returnType
  deriving DecidableEq

namespace Symbol

def all : List Symbol :=
  [.expression, .identifier, .statement, .whileStatement, .declarator,
    .variableDeclaration, .matchBlock, .returnType] ++ TokenKind.all.map .token

/-- The name under which a message catalog lists the symbol. -/
def key : Symbol → String
  | .token kind => kind.key
  | .expression => "Expression"
  | .identifier => "Identifier"
  | .statement => "Statement"
  | .whileStatement => "WhileStatement"
  | .declarator => "Declarator"
  | .variableDeclaration => "VariableDeclaration"
  | .matchBlock => "MatchBlock"
  | .returnType => "ReturnType"

def display : Symbol → String
  | .token kind => kind.display
  | .expression => "expression"
  | .identifier => "identifier"
  | .statement => "statement"
  | .whileStatement => "while statement"
  | .declarator => "declarator"
  | .variableDeclaration => "variable declaration"
  | .matchBlock => "match block"
  | .returnType => "return type"

def ofKey? (name : String) : Option Symbol :=
  all.find? fun symbol => symbol.key == name

end Symbol

/-- One argument of a report. -/
inductive Argument where
  | text (content : String)
  | count (amount : Nat)
  | character (character : Char)
  | span (position : Span)
  | symbols (expected : List Symbol)
  | type (valueType : ValueType)
  | parameter (isMutable : Bool) (valueType : ValueType) (name : String)
  deriving DecidableEq

namespace Argument

/-- The argument that describes a declarator. -/
def ofDeclarator (declarator : Declarator) : Argument :=
  .parameter declarator.isMutable declarator.type declarator.name

def display : Argument → String
  | .text content => content
  | .count amount => toString amount
  | .character single => single.toString
  | .span position => position.display
  | .symbols expected => ", ".intercalate (expected.map Symbol.display)
  | .type valueType => valueType.display
  | .parameter isMutable valueType name =>
      (if isMutable then "MUTABLE" else "") ++ " " ++ valueType.display ++ " " ++ name

end Argument

end Plainspoken
