/-!
# Kinds of reports

Every failure that reading or running a program can raise has a kind.  A kind
has a name, under which message catalogs list its wording, and a stable code
that is shown in front of its messages.
-/

namespace Plainspoken

inductive ErrorKind where
  | noSource
  | unknownToken
  | numberOverflow
  | numberNotADecimal
  | numberNotInBase
  | numberUnknownBase
  | textTooBig
  | textSuddenEnd
  | commentTooBig
  | commentSuddenEnd
  | identifierTooBig
  | unknownEscape
  | expectedToken
  | expectedSymbol
  | duplicateParam
  | dynamicNumberOverflow
  | divisionByZero
  | assignmentToNotVariable
  | expectedNotNone
  | invalidSkip
  | invalidStop
  | invalidReturn
  | variableRedefinition
  | functionRedeclaration
  | functionRedefinition
  | patternRedeclaration
  | patternRedefinition
  | builtinRedefinition
  | functionDefinitionReturnMismatch
  | functionDefinitionParamTypeMismatch
  | patternDefinitionParamTypeMismatch
  | undefinedVariable
  | uninitializedVariable
  | undefinedFunctionOrPattern
  | patternRedefinitionWithFunction
  | functionRedefinitionWithPattern
  | variableReserved
  | variableReservedAssignment
  | variableImmutable
  | pipeNotInPipeline
  | valueNotInMatch
  | badFunctionOverride
  | badPatternOverride
  | notImplementedFunction
  | notImplementedPattern
  | returnExpectedValue
  | returnUnexpectedValue
  | returnedNothing
  | jumpInMatch
  | stackOverflow
  | stackTrace
  deriving DecidableEq

namespace ErrorKind

def all : List ErrorKind := [
    .noSource, .unknownToken, .numberOverflow, .numberNotADecimal, .numberNotInBase,
    .numberUnknownBase, .textTooBig, .textSuddenEnd, .commentTooBig, .commentSuddenEnd,
    .identifierTooBig, .unknownEscape, .expectedToken, .expectedSymbol, .duplicateParam,
    .dynamicNumberOverflow, .divisionByZero, .assignmentToNotVariable, .expectedNotNone,
    .invalidSkip, .invalidStop, .invalidReturn, .variableRedefinition,
    .functionRedeclaration, .functionRedefinition, .patternRedeclaration,
    .patternRedefinition, .builtinRedefinition, .functionDefinitionReturnMismatch,
    .functionDefinitionParamTypeMismatch, .patternDefinitionParamTypeMismatch,
    .undefinedVariable, .uninitializedVariable, .undefinedFunctionOrPattern,
    .patternRedefinitionWithFunction, .functionRedefinitionWithPattern, .variableReserved,
    .variableReservedAssignment, .variableImmutable, .pipeNotInPipeline, .valueNotInMatch,
    .badFunctionOverride, .badPatternOverride, .notImplementedFunction,
    .notImplementedPattern, .returnExpectedValue, .returnUnexpectedValue, .returnedNothing,
    .jumpInMatch, .stackOverflow, .stackTrace]

theorem mem_all (kind : ErrorKind) : kind ∈ all := by
  cases kind <;> simp [all]

def key : ErrorKind → String
  | .noSource => "NoSource"
  | .unknownToken => "UnknownToken"
  | .numberOverflow => "NumberOverflow"
  | .numberNotADecimal => "NumberNotADecimal"
  | .numberNotInBase => "NumberNotInBase"
  | .numberUnknownBase => "NumberUnknownBase"
  | .textTooBig => "TextTooBig"
  | .textSuddenEnd => "TextSuddenEnd"
  | .commentTooBig => "CommentTooBig"
  | .commentSuddenEnd => "CommentSuddenEnd"
  | .identifierTooBig => "IdentifierTooBig"
  | .unknownEscape => "UnknownEscape"
  | .expectedToken => "ExpectedToken"
  | .expectedSymbol => "ExpectedSymbol"
  | .duplicateParam => "DuplicateParam"
  | .dynamicNumberOverflow => "DynamicNumberOverflow"
  | .divisionByZero => "DivisionByZero"
  | .assignmentToNotVariable => "AssignmentToNotVariable"
  | .expectedNotNone => "ExpectedNotNone"
  | .invalidSkip => "InvalidSkip"
  | .invalidStop => "InvalidStop"
  | .invalidReturn => "InvalidReturn"
  | .variableRedefinition => "VariableRedefinition"
  | .functionRedeclaration => "FunctionRedeclaration"
  | .functionRedefinition => "FunctionRedefinition"
  | .patternRedeclaration => "PatternRedeclaration"
  | .patternRedefinition => "PatternRedefinition"
  | .builtinRedefinition => "BuiltinRedefinition"
  | .functionDefinitionReturnMismatch => "FunctionDefinitionReturnMismatch"
  | .functionDefinitionParamTypeMismatch => "FunctionDefinitionParamTypeMismatch"
  | .patternDefinitionParamTypeMismatch => "PatternDefinitionParamTypeMismatch"
  | .undefinedVariable => "UndefinedVariable"
  | .uninitializedVariable => "UninitializedVariable"
  | .undefinedFunctionOrPattern => "UndefinedFunctionOrPattern"
  | .patternRedefinitionWithFunction => "PatternRedefinitionWithFunction"
  | .functionRedefinitionWithPattern => "FunctionRedefinitionWithPattern"
  | .variableReserved => "VariableReserved"
  | .variableReservedAssignment => "VariableReservedAssignment"
  | .variableImmutable => "VariableImmutable"
  | .pipeNotInPipeline => "PipeNotInPipeline"
  | .valueNotInMatch => "ValueNotInMatch"
  | .badFunctionOverride => "BadFunctionOverride"
  | .badPatternOverride => "BadPatternOverride"
  | .notImplementedFunction => "NotImplementedFunction"
  | .notImplementedPattern => "NotImplementedPattern"
  | .returnExpectedValue => "ReturnExpectedValue"
  | .returnUnexpectedValue => "ReturnUnexpectedValue"
  | .returnedNothing => "ReturnedNothing"
  | .jumpInMatch => "JumpInMatch"
  | .stackOverflow => "StackOverflow"
  | .stackTrace => "StackTrace"

/-- The code of a kind.  Lines of a stack trace have none. -/
def code : ErrorKind → String
  | .noSource => "VE00"
  | .unknownToken => "VE10"
  | .numberOverflow => "VE01"
  | .numberNotADecimal => "VE02"
  | .numberNotInBase => "VE03"
  | .numberUnknownBase => "VE03"
  | .textTooBig => "VE04"
  | .textSuddenEnd => "VE05"
  | .commentTooBig => "VE06"
  | .commentSuddenEnd => "VE07"
  | .identifierTooBig => "VE08"
  | .unknownEscape => "VE09"
  | .expectedToken => "VE10"
  | .expectedSymbol => "VE11"
  | .duplicateParam => "VE44"
  | .dynamicNumberOverflow => "VE12"
  | .divisionByZero => "VE13"
  | .assignmentToNotVariable => "VE14"
  | .expectedNotNone => "VE14"
  | .invalidSkip => "VE15"
  | .invalidStop => "VE16"
  | .invalidReturn => "VE17"
  | .variableRedefinition => "VE18"
  | .functionRedeclaration => "VE19"
  | .functionRedefinition => "VE20"
  | .patternRedeclaration => "VE24"
  | .patternRedefinition => "VE25"
  | .builtinRedefinition => "VE23"
  | .functionDefinitionReturnMismatch => "VE21"
  | .functionDefinitionParamTypeMismatch => "VE22"
  | .patternDefinitionParamTypeMismatch => "VE42"
  | .undefinedVariable => "VE26"
  | .uninitializedVariable => "VE47"
  | .undefinedFunctionOrPattern => "VE45"
  | .patternRedefinitionWithFunction => "VE27"
  | .functionRedefinitionWithPattern => "VE40"
  | .variableReserved => "VE28"
  | .variableReservedAssignment => "VE38"
  | .variableImmutable => "VE39"
  | .pipeNotInPipeline => "VE29"
  | .valueNotInMatch => "VE30"
  | .badFunctionOverride => "VE31"
  | .badPatternOverride => "VE32"
  | .notImplementedFunction => "VE33"
  | .notImplementedPattern => "VE34"
  | .returnExpectedValue => "VE36"
  | .returnUnexpectedValue => "VE37"
  | .returnedNothing => "VE43"
  | .jumpInMatch => "VE41"
  | .stackOverflow => "VE46"
  | .stackTrace => ""

def ofKey? (name : String) : Option ErrorKind :=
  all.find? fun kind => kind.key == name

end ErrorKind

inductive LogKind where
  /-- The command line is starting; the argument is the time. -/
  | initialized
  deriving DecidableEq

def LogKind.key : LogKind → String
  | .initialized => "Initialized"

inductive WarningKind where
  /-- A function with a result ended without saying which. -/
  | missingReturn
  deriving DecidableEq

def WarningKind.key : WarningKind → String
  | .missingReturn => "MissingReturn"

end Plainspoken
