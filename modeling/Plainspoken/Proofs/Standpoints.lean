import Plainspoken.Proofs.ReservedNames

/-!
# Evaluation from a standpoint

A place in a program is surrounded by regions of the body that it belongs to: by blocks,
by the parts of pipes and by the branches of matches.  The bodies of functions and patterns
are apart from each other and from the program itself.  While a program runs, calls are in
progress, and every one of them was made at some place.  The places together are the
standpoint from which the next node is evaluated.

A standpoint is known without looking at the machine: a node passes it on to its parts, and
says which region they are in.  Evaluation from a standpoint looks at it in order to decide
what a reserved name means, and leaves everything else as it is.
-/

namespace Plainspoken

open Stepping Evaluation

/-! ## Standpoints -/

/-- A part of a body in which names are bound, or none. -/
inductive Region where
  /-- Statements in a scope of their own, or the body of a function. -/
  | block
  /-- The parts of a pipe, but for what flows into it. -/
  | parts
  /-- The branches of a match, or the body of a pattern. -/
  | branches

def Region.binds : Region → String → Bool
  | .block, _ => false
  | .parts, name => name == pipeName
  | .branches, name => name == subjectName

/-- The regions around a place, the innermost first, and those around the places at which
the calls in progress were made. -/
structure Standpoint where
  here : List Region
  /-- The places of the calls in progress, the innermost call first. -/
  callers : List (List Region)

namespace Standpoint

/-- The standpoint from which a program is run.  The standard library has a scope of its
own around the program. -/
def start : Standpoint :=
  ⟨[.block, .block], []⟩

def program (standpoint : Standpoint) : List Region :=
  standpoint.callers.getLastD standpoint.here

/-- The standpoint inside one more region of the same body. -/
def inside (standpoint : Standpoint) (region : Region) : Standpoint :=
  { standpoint with here := region :: standpoint.here }

/-- The standpoint in a body that is called. -/
def calling (standpoint : Standpoint) (body : Region) : Standpoint :=
  ⟨[body], standpoint.here :: standpoint.callers⟩

/-- Whether a reserved name is bound around the place, in the same body. -/
def bindsHere (standpoint : Standpoint) (name : String) : Bool :=
  standpoint.here.any (·.binds name)

/-- Whether a reserved name is bound around the place that the program has reached. -/
def bindsInProgram (standpoint : Standpoint) (name : String) : Bool :=
  standpoint.program.any (·.binds name)

end Standpoint

/-- What the innermost variable of a name holds. -/
def Frame.held (frame : Frame) (name : String) : Value :=
  ((frame.scopes.findSome? (·.binding? name)).map Variable.value).getD .nothing

/-! ## Nodes -/

namespace Evaluation

section Nodes

variable {M : Type → Type} [Stepping M] (evaluate : Standpoint → Expression → M Value)
  (execute : Standpoint → Statement → M Flow) (standpoint : Standpoint)

/-- Reads a name.  A reserved one is that of the own body, or else that of the program, and
there is no other. -/
def readAt (name : String) : M Value :=
  if isReservedName name then
    if standpoint.bindsHere name then read (·.current.held name)
    else if standpoint.bindsInProgram name then read (·.stack.globalFrame.held name)
    else fail (undefinedName name)
  else valueOf name

def pipeAt (first : Expression) (success failure : Option Expression) : M Value := do
  let carried ← usedValue (evaluate standpoint) first
  update (·.pushScope (Scope.empty.insertVariable (pipeVariable first.span carried)))
  andFinally (pipeParts (evaluate (standpoint.inside .parts)) carried success failure)
    (·.popScope)

/-- Evaluates a call.  The arguments stand where the call stands.  So do the assignments that
a routine makes, which mean the same everywhere. -/
def callAt (name : String) (arguments : List Expression) (span : Span) : M Value := do
  let resolved ← read (resolve · name arguments.length)
  match ← ofExcept resolved with
  | none => fail (.undefinedCallable name)
  | some entry =>
      match entry.callable, arguments with
      | .function signature body, _ =>
          callFunction (evaluate standpoint) (execute (standpoint.calling .block)) signature body
            entry.routine arguments span
      | .pattern signature body, argument :: _ =>
          callPattern (evaluate standpoint) (execute (standpoint.calling .branches)) signature
            body entry.routine argument span
      | .pattern _ _, [] => return .nothing

def expressionNodeAt : Expression → M Value
  | .identifier _ name => readAt standpoint name
  | .pipe _ first success failure => pipeAt evaluate standpoint first success failure
  | .call span name arguments => callAt evaluate execute standpoint name arguments span
  | expression => expressionNode (evaluate standpoint) (execute standpoint) expression

def expressionStepAt (maxDepth : Nat) (expression : Expression) : M Value := do
  enter maxDepth expression.span
  update (·.mark expression.span)
  let value ← expressionNodeAt evaluate execute standpoint expression
  leave
  update ({ · with lastValue := value })
  return value

def statementNodeAt (rounds : Standpoint → Expression → Statement → M Flow) :
    Statement → M Flow
  | .compound _ children => compound (execute (standpoint.inside .block)) children
  | .matching span subject body =>
      matching (evaluate standpoint) (execute (standpoint.inside .branches)) span subject body
  | statement =>
      statementNode (evaluate standpoint) (execute standpoint) (rounds standpoint) statement

def statementStepAt (rounds : Standpoint → Expression → Statement → M Flow) (maxDepth : Nat)
    (statement : Statement) : M Flow := do
  enter maxDepth statement.span
  update (·.mark statement.span)
  let flow ← statementNodeAt evaluate execute standpoint rounds statement
  leave
  return flow

end Nodes

end Evaluation

/-! ## Whole evaluations -/

section

variable {M : Type → Type} [Stepping M]

mutual

def evaluateAt (maxDepth : Nat) : Nat → Standpoint → Expression → M Value
  | 0, _, _ => exhaust
  | fuel + 1, standpoint, expression =>
      expressionStepAt (evaluateAt maxDepth fuel) (executeAt maxDepth fuel) standpoint maxDepth
        expression

def executeAt (maxDepth : Nat) : Nat → Standpoint → Statement → M Flow
  | 0, _, _ => exhaust
  | fuel + 1, standpoint, statement =>
      statementStepAt (evaluateAt maxDepth fuel) (executeAt maxDepth fuel) standpoint
        (roundsAt maxDepth fuel) maxDepth statement

def roundsAt (maxDepth : Nat) : Nat → Standpoint → Expression → Statement → M Flow
  | 0, _, _, _ => exhaust
  | fuel + 1, standpoint, test, body =>
      loopStep (evaluateAt maxDepth fuel standpoint) (executeAt maxDepth fuel standpoint)
        (roundsAt maxDepth fuel standpoint) test body

end

/-- A literal has the same value everywhere, and so has its assignment. -/
theorem evaluateAt_assign_literal (maxDepth fuel : Nat) (standpoint other : Standpoint)
    (span : Span) (name : String) (value : Value) :
    (evaluateAt maxDepth fuel standpoint
      (.assign span (.identifier span name) (.literal span value)) : M Value) =
    evaluateAt maxDepth fuel other
      (.assign span (.identifier span name) (.literal span value)) := by
  cases fuel with
  | zero => simp only [evaluateAt]
  | succ fuel =>
      have literal : (evaluateAt maxDepth fuel standpoint (.literal span value) : M Value) =
          evaluateAt maxDepth fuel other (.literal span value) := by
        cases fuel <;>
          simp only [evaluateAt, expressionStepAt, expressionNodeAt, expressionNode]
      simp only [evaluateAt, expressionStepAt, expressionNodeAt, expressionNode, assign, usedValue,
        literal]

end

end Plainspoken
