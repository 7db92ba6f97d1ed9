import Plainspoken.Diagnostic.Argument
import Plainspoken.Diagnostic.Kind

/-!
# Causes of failures

A failure is described by its cause.  The kind and the arguments of its report
are read off the cause, and its one-line message off the kind and the place.
-/

namespace Plainspoken

/-- The one-line message of a failure of a given kind at a given place. -/
def ErrorKind.message (kind : ErrorKind) (span : Span) : String :=
  "[" ++ kind.code ++ "] " ++ kind.key ++ " at " ++ span.display

inductive BodyKind where
  | text
  | comment
  deriving DecidableEq

/-- Why a source cannot be split into tokens. -/
inductive LexicalCause where
  | unknownToken
  | numberOverflow
  | numberNotADecimal
  | numberNotInBase
  | numberUnknownBase
  | bodyTooBig (body : BodyKind) (limit : Nat)
  | bodySuddenEnd (body : BodyKind)
  | identifierTooBig (limit : Nat)
  | unknownEscape (character : Char)
  deriving DecidableEq

namespace LexicalCause

def kind : LexicalCause → ErrorKind
  | .unknownToken => .unknownToken
  | .numberOverflow => .numberOverflow
  | .numberNotADecimal => .numberNotADecimal
  | .numberNotInBase => .numberNotInBase
  | .numberUnknownBase => .numberUnknownBase
  | .bodyTooBig .text _ => .textTooBig
  | .bodyTooBig .comment _ => .commentTooBig
  | .bodySuddenEnd .text => .textSuddenEnd
  | .bodySuddenEnd .comment => .commentSuddenEnd
  | .identifierTooBig _ => .identifierTooBig
  | .unknownEscape _ => .unknownEscape

def arguments : LexicalCause → List Argument
  | .bodyTooBig _ limit | .identifierTooBig limit => [.count limit]
  | .unknownEscape character => [.character character]
  | _ => []

end LexicalCause

/-- A failure to split a source into tokens: the cause, the place and the
source text read since the last token. -/
structure LexicalError where
  cause : LexicalCause
  span : Span
  buffered : String
  deriving DecidableEq

/-- Why tokens do not form a program. -/
inductive GrammarCause where
  | expectedToken (kinds : List TokenKind)
  | expectedSymbol (symbol : Symbol)
  | duplicateParameter (parameter function : String)
  deriving DecidableEq

namespace GrammarCause

def kind : GrammarCause → ErrorKind
  | .expectedToken _ => .expectedToken
  | .expectedSymbol _ => .expectedSymbol
  | .duplicateParameter _ _ => .duplicateParam

def arguments : GrammarCause → List Argument
  | .expectedToken kinds => [.symbols (kinds.map .token)]
  | .expectedSymbol symbol => [.symbols [symbol]]
  | .duplicateParameter parameter function => [.text parameter, .text function]

end GrammarCause

/-- A failure of the grammar: the cause, the place and the token found there. -/
structure GrammarError where
  cause : GrammarCause
  span : Span
  found : String
  deriving DecidableEq

/-- The failures that keep a program from being built. -/
inductive BuildError where
  | lexical (error : LexicalError)
  | grammar (error : GrammarError)
  deriving DecidableEq

namespace BuildError

def kind : BuildError → ErrorKind
  | .lexical error => error.cause.kind
  | .grammar error => error.cause.kind

def span : BuildError → Span
  | .lexical error => error.span
  | .grammar error => error.span

def arguments : BuildError → List Argument
  | .lexical error => error.cause.arguments
  | .grammar error => error.cause.arguments

/-- The source text or token that the report quotes. -/
def buffered : BuildError → String
  | .lexical error => error.buffered
  | .grammar error => error.found

end BuildError

/-- Why a running program fails. -/
inductive RuntimeCause where
  | divisionByZero
  | assignmentToNotVariable
  | expectedNotNone
  | invalidSkip
  | invalidStop
  | invalidReturn
  | variableRedefinition (name : String) (declared : Span)
  | functionRedeclaration (name : String) (declared : Span)
  | functionRedefinition (name : String) (declared : Span)
  | patternRedeclaration (name : String) (declared : Span)
  | patternRedefinition (name : String) (declared : Span)
  | builtinRedefinition (name : String)
  | functionReturnMismatch (name : String) (declared : Span)
      (given expected : ValueType)
  | functionParameterMismatch (name : String) (declared : Span)
      (given expected : Declarator)
  | patternParameterMismatch (name : String) (declared : Span)
      (given expected : Declarator)
  | undefinedVariable (name : String)
  | uninitializedVariable (name : String) (declared : Span)
  | undefinedCallable (name : String)
  | patternRedefinedAsFunction (name : String) (declared : Span)
  | functionRedefinedAsPattern (name : String) (declared : Span)
  | variableReserved (name : String)
  | reservedAssignment
  | variableImmutable (name : String)
  | pipeOutsidePipeline
  | subjectOutsideMatch
  | functionOverrideUndeclared (name : String)
  | patternOverrideUndeclared (name : String)
  | functionNotImplemented (name : String) (declared : Span)
  | patternNotImplemented (name : String) (declared : Span)
  | returnExpectedValue
  | returnUnexpectedValue
  | returnedNothing
  | jumpInMatch
  | stackOverflow (reached : Span)
  deriving DecidableEq

namespace RuntimeCause

def kind : RuntimeCause → ErrorKind
  | .divisionByZero => .divisionByZero
  | .assignmentToNotVariable => .assignmentToNotVariable
  | .expectedNotNone => .expectedNotNone
  | .invalidSkip => .invalidSkip
  | .invalidStop => .invalidStop
  | .invalidReturn => .invalidReturn
  | .variableRedefinition _ _ => .variableRedefinition
  | .functionRedeclaration _ _ => .functionRedeclaration
  | .functionRedefinition _ _ => .functionRedefinition
  | .patternRedeclaration _ _ => .patternRedeclaration
  | .patternRedefinition _ _ => .patternRedefinition
  | .builtinRedefinition _ => .builtinRedefinition
  | .functionReturnMismatch _ _ _ _ => .functionDefinitionReturnMismatch
  | .functionParameterMismatch _ _ _ _ => .functionDefinitionParamTypeMismatch
  | .patternParameterMismatch _ _ _ _ => .patternDefinitionParamTypeMismatch
  | .undefinedVariable _ => .undefinedVariable
  | .uninitializedVariable _ _ => .uninitializedVariable
  | .undefinedCallable _ => .undefinedFunctionOrPattern
  | .patternRedefinedAsFunction _ _ => .patternRedefinitionWithFunction
  | .functionRedefinedAsPattern _ _ => .functionRedefinitionWithPattern
  | .variableReserved _ => .variableReserved
  | .reservedAssignment => .variableReservedAssignment
  | .variableImmutable _ => .variableImmutable
  | .pipeOutsidePipeline => .pipeNotInPipeline
  | .subjectOutsideMatch => .valueNotInMatch
  | .functionOverrideUndeclared _ => .badFunctionOverride
  | .patternOverrideUndeclared _ => .badPatternOverride
  | .functionNotImplemented _ _ => .notImplementedFunction
  | .patternNotImplemented _ _ => .notImplementedPattern
  | .returnExpectedValue => .returnExpectedValue
  | .returnUnexpectedValue => .returnUnexpectedValue
  | .returnedNothing => .returnedNothing
  | .jumpInMatch => .jumpInMatch
  | .stackOverflow _ => .stackOverflow

def arguments : RuntimeCause → List Argument
  | .variableRedefinition name declared
  | .functionRedeclaration name declared
  | .functionRedefinition name declared
  | .patternRedeclaration name declared
  | .patternRedefinition name declared
  | .uninitializedVariable name declared
  | .patternRedefinedAsFunction name declared
  | .functionRedefinedAsPattern name declared
  | .functionNotImplemented name declared
  | .patternNotImplemented name declared => [.text name, .span declared]
  | .functionReturnMismatch name declared given expected =>
      [.text name, .span declared, .type given, .type expected]
  | .functionParameterMismatch name declared given expected
  | .patternParameterMismatch name declared given expected =>
      [.text name, .span declared, .ofDeclarator given, .ofDeclarator expected]
  | .builtinRedefinition name
  | .undefinedVariable name
  | .undefinedCallable name
  | .variableReserved name
  | .variableImmutable name
  | .functionOverrideUndeclared name
  | .patternOverrideUndeclared name => [.text name]
  | .stackOverflow reached => [.span reached]
  | _ => []

end RuntimeCause

/-- A failure of a running program at the place it was traced to. -/
structure RuntimeError where
  cause : RuntimeCause
  span : Span
  deriving DecidableEq

end Plainspoken
