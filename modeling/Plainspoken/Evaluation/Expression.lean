import Plainspoken.Evaluation.Access
import Plainspoken.Evaluation.Operator
import Plainspoken.Words

/-!
# Evaluating expressions

What one node of an expression does, given how expressions and statements
nested in it are evaluated.  An expression whose value is used is evaluated
with the flag of an expected value set on the innermost scope, so that a
function without a result fails there.
-/

namespace Plainspoken

/-- How control leaves a statement. -/
inductive Flow where
  | normal
  /-- On the way to the next round of the loop. -/
  | skip
  /-- On the way out of the loop. -/
  | stop
  /-- On the way out of the call, with its result. -/
  | giveBack (value : Value)
  deriving DecidableEq

namespace Evaluation

open Plainspoken.Stepping

section Nodes

variable {M : Type → Type} [Stepping M]
  (evaluate : Expression → M Value) (execute : Statement → M Flow)

/-- Evaluates an expression whose value is used.  The flag of an expected value
is set meanwhile and, unless it was set before, cleared afterwards. -/
@[inline]
def usedValue (expression : Expression) : M Value := do
  let expected ← read (·.current.innermostFlags.expectValue)
  update (·.setFlags .onlyExpectValue)
  andFinally (evaluate expression) fun machine =>
    if expected then machine else machine.unsetFlags .onlyExpectValue

/-- Evaluates a condition, which must not be nothing. -/
@[inline]
def condition (expression : Expression) : M Bool := do
  let value ← usedValue evaluate expression
  ofOption .expectedNotNone value.asFact?

/-! ## Pipes and assignments -/

def pipeVariable (span : Span) (value : Value) : Variable :=
  .holding ⟨span, true, .number, pipeName⟩ value

def pipeFailure (failure : Option Expression) : M Value :=
  match failure with
  | some failure => evaluate failure
  | none => return .nothing

/-- Evaluates the parts of a pipe with the value that flows into it.  The first
part is for values that are there, and the second one for nothing, also when it
comes out of the first part. -/
def pipeParts (carried : Value) (success failure : Option Expression) : M Value :=
  if carried.isNothing then pipeFailure evaluate failure
  else
    match success with
    | none => return .nothing
    | some success => do
        let value ← evaluate success
        if value.isNothing then pipeFailure evaluate failure else return value

/-- Evaluates a pipe.  Its parts see the value that flows into it under a name
of its own, in a scope of their own. -/
def pipe (first : Expression) (success failure : Option Expression) : M Value := do
  let carried ← usedValue evaluate first
  update (·.pushScope (Scope.empty.insertVariable (pipeVariable first.span carried)))
  andFinally (pipeParts evaluate carried success failure) (·.popScope)

/-- Evaluates an assignment: the value is cast to the type of the variable that
owns the storage, and stored there. -/
def assign (target value : Expression) : M Value := do
  match target.name? with
  | none => fail .assignmentToNotVariable
  | some name =>
      if isReservedName name then fail .reservedAssignment
      else
        match ← read (·.ownerOf? name) with
        | none => fail (undefinedName name)
        | some (owner, binding) =>
            if binding.declarator.isMutable then
              let value ← usedValue evaluate value
              let value := value.cast binding.declarator.type
              storeAt owner value
              return value
            else fail (.variableImmutable name)

/-! ## Calls -/

/-- The variable of a parameter.  Only a parameter that may be assigned keeps
the reference to the storage of its argument. -/
def bindParameter (parameter : Declarator) (value : Value) (site : Option Site) : Variable :=
  { Variable.holding parameter value with
    reference := if parameter.isMutable then site else none }

def bindArguments : List Expression → List Declarator → M (List Variable)
  | argument :: arguments, parameter :: parameters => do
      let site ← read (·.argumentSite? argument)
      let value ← evaluate argument
      let bound := bindParameter parameter (value.cast parameter.type) site
      return bound :: (← bindArguments arguments parameters)
  | _, _ => return []

/-- What a routine makes of the text it is given. -/
def textRoutine (operation : String → Option String) : M Value := do
  let text := (← valueOf "t").asText?
  return (text.bind operation).elim .nothing .text

/-- Takes the source text apart and assigns both halves by name. -/
def splitRoutine (operation : String → String × Option String) (left right : String) :
    M Value := do
  let source := (← valueOf "source").asText?
  let span ← read (·.current.span)
  let halves := source.map operation
  let assignHalf (name : String) (half : Option String) : M Value :=
    evaluate (.assign span (.identifier span name)
      (.literal span (half.elim .nothing .text)))
  let _ ← assignHalf left (halves.map (·.1))
  assignHalf right (halves.bind (·.2))

def runRoutine : Routine → M Value
  | .print => do
      let line := (← valueOf "t").asText?.getD ""
      update (·.emit (.line line))
      return .nothing
  | .quit => halt .quit
  | .first => textRoutine (some ∘ Words.first)
  | .last => textRoutine (some ∘ Words.last)
  | .body => textRoutine Words.body
  | .tail => textRoutine Words.tail
  | .split => splitRoutine evaluate Words.splitFirst "head" "tail"
  | .backSplit => splitRoutine evaluate Words.splitLast "body" "tip"
  | .fizzBuzz => do
      match (← valueOf "n").asNumber? with
      | some number => update (·.emit (.line (fizzBuzz number)))
      | none => pure ()
      return .nothing

/-- The result of a function that ended without giving one: the value evaluated
last, with a warning if there should have been one. -/
def fallThrough (signature : FunctionSignature) : M Value := do
  unless signature.returns = .nothing do
    let span ← read (·.current.span)
    update (·.emit (.event (.warning .missingReturn span [.text signature.name])))
  read (·.lastValue)

def runBody (signature : FunctionSignature) (body : Statement) : M Value := do
  match ← execute body with
  | .giveBack value => return value
  | _ => fallThrough signature

def functionFrame (signature : FunctionSignature) (span : Span)
    (parameters : List Variable) : Frame :=
  (parameters.foldl Frame.insertVariable
    (Frame.start signature.name span signature.returns)).setFlags .onlyCall

/-- Calls a function.  The frame of a call that is halted stays open. -/
def callFunction (signature : FunctionSignature) (body : Statement)
    (routine : Option Routine) (arguments : List Expression) (span : Span) :
    M Value := do
  let expected ← read (·.current.hasFlags .onlyExpectValue)
  if signature.returns = .nothing ∧ expected = true then fail .returnedNothing
  else
    let parameters ← bindArguments evaluate arguments signature.parameters
    update (·.mark span)
    update (·.pushFrame (functionFrame signature span parameters))
    let value ←
      match routine with
      | some routine => runRoutine evaluate routine
      | none => runBody execute signature body
    update (·.popFrame)
    return if signature.returns = .nothing then .nothing else value

/-- The frame of a pattern: its subject is bound under the reserved name and as
the parameter. -/
def patternFrame (signature : PatternSignature) (span : Span) (value : Value)
    (site : Option Site) : Frame :=
  let parameter := signature.parameter
  let subject : Declarator := ⟨parameter.span, false, parameter.type, subjectName⟩
  (((Frame.start signature.name span .nothing).insertVariable
    (.holding subject value)).insertVariable
      (bindParameter parameter value site)).setFlags .onlyMatching

/-- Calls a pattern, which yields nothing. -/
def callPattern (signature : PatternSignature) (body : Statement)
    (routine : Option Routine) (argument : Expression) (span : Span) : M Value := do
  let site ← read (·.argumentSite? argument)
  let value ← usedValue evaluate argument
  let value := value.cast signature.parameter.type
  update (·.mark span)
  update (·.pushFrame (patternFrame signature span value site))
  match routine with
  | some routine =>
      let _ ← runRoutine evaluate routine
      update (·.popFrame)
  | none =>
      let _ ← execute body
      update (·.popFrame)
  return .nothing

/-- The entry that a call refers to: one of the program's frame comes before
one of the current frame. -/
def resolve (machine : Machine) (name : String) (arity : Nat) :
    Except RuntimeCause (Option Entry) := do
  match ← machine.stack.globalFrame.resolve name arity with
  | some entry => return some entry
  | none => machine.current.resolve name arity

def call (name : String) (arguments : List Expression) (span : Span) : M Value := do
  let resolved ← read (resolve · name arguments.length)
  match ← ofExcept resolved with
  | none => fail (.undefinedCallable name)
  | some entry =>
      match entry.callable, arguments with
      | .function signature body, _ =>
          callFunction evaluate execute signature body entry.routine arguments span
      | .pattern signature body, argument :: _ =>
          callPattern evaluate execute signature body entry.routine argument span
      | .pattern _ _, [] => return .nothing

/-! ## Nodes -/

/-- Evaluates what stands at a node. -/
@[inline]
def expressionNode : Expression → M Value
  | .literal _ value => return value
  | .identifier _ name => valueOf name
  | .unary _ operator operand => do
      return operator.apply (← usedValue evaluate operand)
  | .binary _ operator left right => do
      let left ← usedValue evaluate left
      let right ← usedValue evaluate right
      ofExcept (operator.apply left right)
  | .ternary _ test yes no => do
      if ← condition evaluate test then evaluate yes
      else
        match no with
        | some no => evaluate no
        | none => return .nothing
  | .pipe _ first success failure => pipe evaluate first success failure
  | .noneTest _ operand => do
      return .fact (← usedValue evaluate operand).isNothing
  | .assign _ target value => assign evaluate target value
  | .call span name arguments => call evaluate execute name arguments span

/-- Evaluates an expression one level deeper, and remembers its value. -/
@[inline]
def expressionStep (maxDepth : Nat) (expression : Expression) : M Value := do
  enter maxDepth expression.span
  update (·.mark expression.span)
  let value ← expressionNode evaluate execute expression
  leave
  update ({ · with lastValue := value })
  return value

end Nodes

end Evaluation

end Plainspoken
