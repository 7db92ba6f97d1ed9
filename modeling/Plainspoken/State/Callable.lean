import Plainspoken.Diagnostic.Cause
import Plainspoken.Tree.Statement

/-!
# Functions and patterns

Functions and patterns share one table, keyed by name and number of
parameters.  A declaration without a body may be completed once by one with
the same signature.  The routines of the standard library are declarations
that nobody can complete or replace.
-/

namespace Plainspoken

/-- The routines of the standard library. -/
inductive Routine where
  | print
  | quit
  | first
  | last
  | body
  | tail
  | split
  | backSplit
  | fizzBuzz
  deriving DecidableEq

def Routine.name : Routine → String
  | .print => "Print"
  | .quit => "Quit"
  | .first => "First"
  | .last => "Last"
  | .body => "Body"
  | .tail => "Tail"
  | .split => "Split"
  | .backSplit => "BackSplit"
  | .fizzBuzz => "FizzBuzz"

inductive Callable where
  | function (signature : FunctionSignature) (body : Statement)
  | pattern (signature : PatternSignature) (body : Statement)

namespace Callable

def name : Callable → String
  | .function signature _ => signature.name
  | .pattern signature _ => signature.name

def span : Callable → Span
  | .function signature _ => signature.span
  | .pattern signature _ => signature.span

def arity : Callable → Nat
  | .function signature _ => signature.parameters.length
  | .pattern _ _ => 1

def hasBody : Callable → Bool
  | .function _ body | .pattern _ body => !body.isEmpty

/-- Whether the declaration completes an earlier one in place. -/
def overrides : Callable → Bool
  | .function signature _ => signature.overrides
  | .pattern signature _ => signature.overrides

/-- Whether it is found under a name and a number of arguments. -/
def answers (callable : Callable) (name : String) (arity : Nat) : Bool :=
  callable.name == name && callable.arity == arity

/-- Why a completing declaration that overrides has nothing to complete. -/
def overrideFailure : Callable → RuntimeCause
  | .function signature _ => .functionOverrideUndeclared signature.name
  | .pattern signature _ => .patternOverrideUndeclared signature.name

/-- Why a declaration without a body cannot be called. -/
def notImplemented : Callable → RuntimeCause
  | .function signature _ => .functionNotImplemented signature.name signature.span
  | .pattern signature _ => .patternNotImplemented signature.name signature.span

end Callable

/-- An entry of the table of callables; a routine runs in place of a body. -/
structure Entry where
  callable : Callable
  routine : Option Routine

namespace Entry

def isImplemented (entry : Entry) : Bool :=
  entry.routine.isSome || entry.callable.hasBody

end Entry

def firstDisagreement : List Declarator → List Declarator → Option (Declarator × Declarator)
  | given :: givens, expected :: expecteds =>
      if given.agrees expected then firstDisagreement givens expecteds
      else some (given, expected)
  | _, _ => none

/-- Why a new function cannot complete an earlier one of the same key. -/
def functionConflict (signature : FunctionSignature) (body : Statement)
    (earlier : FunctionSignature) (earlierBody : Statement) : Option RuntimeCause :=
  if earlier.returns ≠ signature.returns then
    some (.functionReturnMismatch signature.name earlier.span signature.returns earlier.returns)
  else if !earlierBody.isEmpty then
    some (.functionRedefinition signature.name earlier.span)
  else if body.isEmpty then
    some (.functionRedeclaration signature.name earlier.span)
  else
    (firstDisagreement signature.parameters earlier.parameters).map fun (given, expected) =>
      .functionParameterMismatch signature.name earlier.span given expected

/-- Why a new pattern cannot complete an earlier one of the same key. -/
def patternConflict (signature : PatternSignature) (body : Statement)
    (earlier : PatternSignature) (earlierBody : Statement) : Option RuntimeCause :=
  if !earlierBody.isEmpty then
    some (.patternRedefinition signature.name earlier.span)
  else if body.isEmpty then
    some (.patternRedeclaration signature.name earlier.span)
  else if signature.parameter.agrees earlier.parameter then none
  else
    some (.patternParameterMismatch signature.name earlier.span
      signature.parameter earlier.parameter)

/-- Why a new declaration cannot stand beside an entry of the same key. -/
def Callable.conflict (declared : Callable) (entry : Entry) : Option RuntimeCause :=
  if entry.routine.isSome then some (.builtinRedefinition declared.name)
  else
    match declared, entry.callable with
    | .function signature body, .function earlier earlierBody =>
        functionConflict signature body earlier earlierBody
    | .function signature _, .pattern earlier _ =>
        some (.patternRedefinedAsFunction signature.name earlier.span)
    | .pattern signature body, .pattern earlier earlierBody =>
        patternConflict signature body earlier earlierBody
    | .pattern signature _, .function earlier _ =>
        some (.functionRedefinedAsPattern signature.name earlier.span)

end Plainspoken
