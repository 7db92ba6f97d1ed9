import Plainspoken.Catalog.Basic

/-!
# The English catalog

The catalog that is used where no other one is chosen.
-/

namespace Plainspoken

namespace Catalog

def englishError : ErrorKind → String
  | .noSource => "[VE00] : No source code provided!"
  | .unknownToken => "[VE10] @ {0}: Unknown token '{1}'!"
  | .numberOverflow => "[VE01] @ {0}: Constant number overflow!"
  | .numberNotADecimal => "[VE02] @ {0}: Incorrect decimal part '{1}'!"
  | .numberNotInBase => "[VE03] @ {0}: Incorrect non-base 10 number '{1}'!"
  | .numberUnknownBase => "[VE03] @ {0}: Unknown radix '{1}'!"
  | .textTooBig => "[VE04] @ {0}: Text constant size is above the limit of {2}!"
  | .textSuddenEnd => "[VE05] @ {0}: Code ended with unclosed text constant!"
  | .commentTooBig => "[VE06] @ {0}: Comment size is above the limit of {2}!"
  | .commentSuddenEnd => "[VE07] @ {0}: Code ended with unclosed comment!"
  | .identifierTooBig => "[VE08] @ {0}: Identifier name exceeded size limit of {2}!"
  | .unknownEscape => "[VE09] @ {0}: Unrecognised escape sequence '{2}' at '{1}'!"
  | .expectedToken => "[VE10] @ {0}: Expected one of the following tokens: '{2}' but got '{1}'!"
  | .expectedSymbol =>
      "[VE11] @ {0}: Expected one of the following symbols: '{2}' but got '{1}'!"
  | .duplicateParam => "[VE44] @ {0}: Duplicate parameter name '{2}' in function '{3}'!"
  | .dynamicNumberOverflow => "[VE12] @ {0}: Number overflow!"
  | .divisionByZero => "[VE13] @ {0}: Division by zero!"
  | .assignmentToNotVariable =>
      "[VE14] @ {0}: The left-hand side of an assigment must be a variable!"
  | .expectedNotNone => "[VE14] @ {0}: Expected not none!"
  | .invalidSkip => "[VE15] @ {0}: SKIP can only be used inside of a while or for loop!"
  | .invalidStop => "[VE16] @ {0}: STOP can only be used inside of a while or for loop!"
  | .invalidReturn =>
      "[VE17] @ {0}: RETURN can be used with a value only inside a function body!"
  | .variableRedefinition => "[VE18] @ {0}: Redefinition of variable '{2}' defined at {3}!"
  | .functionRedeclaration => "[VE19] @ {0}: Redeclaration of function '{2}' declared at {3}!"
  | .functionRedefinition => "[VE20] @ {0}: Redefinition of function '{2}' defined at {3}!"
  | .patternRedeclaration => "[VE24] @ {0}: Redeclaration of pattern '{2}' declared at {3}!"
  | .patternRedefinition => "[VE25] @ {0}: Redefinition of pattern '{2}' defined at {3}!"
  | .builtinRedefinition => "[VE23] @ {0}: Redefinition of built-in function or pattern '{2}'!"
  | .functionDefinitionReturnMismatch =>
      "[VE21] @ {0}: Definition of function '{2}' declared at {3} doesn't match " ++
        "declared return type of '{5}' (got '{4}')!"
  | .functionDefinitionParamTypeMismatch =>
      "[VE22] @ {0}: Definition of function '{2}' declared at {3} doesn't match " ++
        "one of the declared parameters '{5}' (got '{4}')!"
  | .patternDefinitionParamTypeMismatch =>
      "[VE42] @ {0}: Definition of pattern '{2}' declared at {3} doesn't match the " ++
        "declared parameter '{5}' (got '{4}')!"
  | .undefinedVariable => "[VE26] @ {0}: Undefined variable '{2}'!"
  | .uninitializedVariable =>
      "[VE47] @ {0}: Trying to evaluate uninitialized variable '{2}' defined at {3}!"
  | .undefinedFunctionOrPattern => "[VE45] @ {0}: Undefined function or pattern '{2}'!"
  | .patternRedefinitionWithFunction =>
      "[VE27] @ {0}: Definition of function '{2}' collides with declared pattern at {3}!"
  | .functionRedefinitionWithPattern =>
      "[VE40] @ {0}: Definition of pattern '{2}' collides with declared function at {3}!"
  | .variableReserved =>
      "[VE28] @ {0}: Variable '{2}' is reserved and can't be defined by the user!"
  | .variableReservedAssignment =>
      "[VE38] @ {0}: Cannot assign to reserved PIPE or VALUE variables!"
  | .variableImmutable => "[VE39] @ {0}: Cannot assign to immutable variable '{2}'!"
  | .pipeNotInPipeline =>
      "[VE29] @ {0}: PIPE variable can be only used inside a pipeline expression!"
  | .valueNotInMatch =>
      "[VE30] @ {0}: VALUE variable can be only used inside an anonymous match or a pattern!"
  | .badFunctionOverride =>
      "[VE31] @ {0}: Cannot override function '{2}' that has not been declared!"
  | .badPatternOverride =>
      "[VE32] @ {0}: Cannot override pattern '{2}' that has not been declared!"
  | .notImplementedFunction =>
      "[VE33] @ {0}: Attempting to call an unimplemented function '{2}' declared at {3}!"
  | .notImplementedPattern =>
      "[VE34] @ {0}: Attempting to call an unimplemented pattern '{2}' declared at {3}!"
  | .returnExpectedValue => "[VE36] @ {0}: Expected to return a value from function!"
  | .returnUnexpectedValue =>
      "[VE37] @ {0}: Functions that return nothing cannot return a value!"
  | .returnedNothing =>
      "[VE43] @ {0}: Expected a value, but function or pattern returns type NOTHING!"
  | .jumpInMatch =>
      "[VE41] @ {0}: Jump instructions inside an anonymous match or pattern are illegal!"
  | .stackOverflow => "[VE46] @ {0}: Stack overflow!"
  | .stackTrace => "    Occured @ {0} inside of '{2}'..."

/-- The English name of a grammar symbol: the end of the source is called the
end of the code, and all others have their usual names. -/
def englishSymbol : Symbol → String
  | .token .endOfSource => "end of code"
  | symbol => symbol.display

def english : Catalog where
  name := "en-us"
  unknown := "Unknown locale entry!!!"
  logs := [(LogKind.initialized.key, "{2} Initializing Verbose CLI Interpreter...")]
  warnings := [(WarningKind.missingReturn.key,
    "[VW00] @ {0}: Function '{2}' ended without RETURN, " ++
      "its last evaluated value is returned!")]
  errors := ErrorKind.all.map fun kind => (kind.key, englishError kind)
  symbols := Symbol.all.map fun symbol => (symbol.key, englishSymbol symbol)
  types := [ValueType.any, .number, .text, .fact, .nothing].map fun valueType =>
    (valueType.key, valueType.display)

end Catalog

end Plainspoken
