import Plainspoken.Evaluation.Expression

/-!
# Executing statements

What one statement does, given how expressions and statements nested in it are
evaluated.  A jump is reported as the way in which control leaves a statement,
and travels outwards to the loop or call that ends it.
-/

namespace Plainspoken

namespace Evaluation

open Plainspoken.Stepping

section Nodes

variable {M : Type → Type} [Stepping M]
  (evaluate : Expression → M Value) (execute : Statement → M Flow)

def addVariable (binding : Variable) : M Unit := do
  match ← read (·.current.declareVariable binding) with
  | .ok frame => update (·.modifyCurrent fun _ => frame)
  | .error cause => fail cause

def declareVariable (declarator : Declarator) (initial : Option Expression) :
    M Unit := do
  if isReservedName declarator.name then fail (.variableReserved declarator.name)
  else
    let binding ←
      match initial with
      | some initial => do
          let value ← usedValue evaluate initial
          pure (Variable.holding declarator (value.cast declarator.type))
      | none => pure (Variable.uninitialized declarator)
    addVariable binding

/-- Declares a function or pattern in the current frame.  No routine of the
standard library may have its key. -/
def declareCallable (declared : Callable) : M Unit := do
  ofExcept (← read (·.stack.globalFrame.checkRoutine declared.name declared.arity))
  let (result, frame) ← read (·.current.declareCallable declared)
  update (·.modifyCurrent fun _ => frame)
  ofExcept result

/-- The flags of a match whose condition held, in some scopes together. -/
def branchTaken : Flags :=
  Flags.onlyMatching.union .onlyLastCondition

/-- Executes statements in order, up to the first jump.  In a match the first
condition that held ends the block. -/
def block : List Statement → M Flow
  | [] => return .normal
  | statement :: statements => do
      match ← execute statement with
      | .normal =>
          if ← read (·.current.sumsToFlags branchTaken) then return .normal
          else block statements
      | flow => return flow

/-- Executes a conditional; the innermost scope remembers which way it went. -/
def conditional (test : Expression) (positive : Statement) (negative : Option Statement) :
    M Flow := do
  if ← condition evaluate test then
    update (·.setFlags .onlyLastCondition)
    execute positive
  else
    update (·.unsetFlags .onlyLastCondition)
    match negative with
    | some negative => execute negative
    | none => return .normal

/-- Executes one round of a loop, and the rounds after it with `again`.  The
innermost scope is marked as one of a loop in every round, and no more once the
loop has ended. -/
@[inline]
def loopStep (again : Expression → Statement → M Flow) (test : Expression)
    (body : Statement) : M Flow := do
  if ← condition evaluate test then
    update (·.setFlags .onlyLoop)
    match ← execute body with
    | .normal | .skip => again test body
    | .stop =>
        update (·.unsetFlags .onlyLoop)
        return .normal
    | .giveBack value =>
        update (·.unsetFlags .onlyLoop)
        return .giveBack value
  else
    update (·.unsetFlags .onlyLoop)
    return .normal

/-- Jumps out of a loop body, or on to its next round. -/
def loopJump (flow : Flow) (illegal : RuntimeCause) : M Flow := do
  let frame ← read (·.current)
  if frame.hasFlags .onlyMatching then fail .jumpInMatch
  else if frame.hasFlags .onlyLoop then return flow
  else fail illegal

/-- Jumps out of a call, with a value if and only if one is declared. -/
def giveBack (value : Option Expression) : M Flow := do
  let frame ← read (·.current)
  if frame.hasFlags .onlyMatching then fail .jumpInMatch
  else if !frame.hasFlags .onlyCall then fail .invalidReturn
  else
    match frame.returns, value with
    | .nothing, some _ => fail .returnUnexpectedValue
    | .nothing, none => return .giveBack .nothing
    | _, none => fail .returnExpectedValue
    | returns, some value => do
        let value ← usedValue evaluate value
        return .giveBack (value.cast returns)

/-- The scope of a match with its subject. -/
def subjectScope (span : Span) (subject : Value) : Scope :=
  (Scope.withFlags .onlyMatching).insertVariable
    (.holding ⟨span, false, subject.type, subjectName⟩ subject)

/-- Executes a match: the subject is bound in a scope of its own around the
branches. -/
def matching (span : Span) (subject : Expression) (body : Statement) : M Flow := do
  let subject ← usedValue evaluate subject
  update (·.pushScope (subjectScope span subject))
  andFinally (execute body) (·.popScope)

/-- Executes statements in a scope of their own. -/
def compound (children : List Statement) : M Flow := do
  update (·.pushScope .empty)
  andFinally (block execute children) (·.popScope)

/-- Executes what stands at a node; `rounds` runs the rounds of a loop. -/
@[inline]
def statementNode (rounds : Expression → Statement → M Flow) :
    Statement → M Flow
  | .expression content => do
      let _ ← evaluate content
      return .normal
  | .variable declarator initial => do
      declareVariable evaluate declarator initial
      return .normal
  | .function signature body => do
      declareCallable (.function signature body)
      return .normal
  | .pattern signature body => do
      declareCallable (.pattern signature body)
      return .normal
  | .compound _ children => compound execute children
  | .conditional _ test positive negative =>
      conditional evaluate execute test positive negative
  | .loop _ test body => rounds test body
  | .skip _ => loopJump .skip .invalidSkip
  | .stop _ => loopJump .stop .invalidStop
  | .giveBack _ value => giveBack evaluate value
  | .matching span subject body => matching evaluate execute span subject body
  | .empty _ => return .normal

/-- Executes a statement one level deeper. -/
@[inline]
def statementStep (rounds : Expression → Statement → M Flow) (maxDepth : Nat)
    (statement : Statement) : M Flow := do
  enter maxDepth statement.span
  update (·.mark statement.span)
  let flow ← statementNode evaluate execute rounds statement
  leave
  return flow

end Nodes

end Evaluation

section

variable {M : Type → Type} [Stepping M]

mutual

/-- Evaluates an expression; `fuel` bounds the nesting of nodes and the rounds
of loops. -/
@[specialize]
def evaluate (maxDepth : Nat) : Nat → Expression → M Value
  | 0, _ => Stepping.exhaust
  | fuel + 1, expression =>
      Evaluation.expressionStep (evaluate maxDepth fuel) (execute maxDepth fuel)
        maxDepth expression

/-- Executes a statement; `fuel` bounds the nesting of nodes and the rounds of
loops. -/
@[specialize]
def execute (maxDepth : Nat) : Nat → Statement → M Flow
  | 0, _ => Stepping.exhaust
  | fuel + 1, statement =>
      Evaluation.statementStep (evaluate maxDepth fuel) (execute maxDepth fuel)
        (executeRounds maxDepth fuel) maxDepth statement

@[specialize]
def executeRounds (maxDepth : Nat) : Nat → Expression → Statement → M Flow
  | 0, _, _ => Stepping.exhaust
  | fuel + 1, test, body =>
      Evaluation.loopStep (evaluate maxDepth fuel) (execute maxDepth fuel)
        (executeRounds maxDepth fuel) test body

end

end

end Plainspoken
