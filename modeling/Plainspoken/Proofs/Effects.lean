import Plainspoken.Proofs.Completion
import Plainspoken.Proofs.Extension

/-!
# The effects of expressions and statements

An expression that finishes leaves a machine that is alike, and a statement that
finishes leaves one whose current frame is extended.  Scopes and frames that are
opened on the way have been closed again, and flags that are set meanwhile have
their value from before.

Every node is treated on its own: whatever the parts of a node do, the node does
no more than the same.  The statement about whole evaluations follows by
induction on the fuel.
-/

namespace Plainspoken

open List (Forall₂)
open Stepping Evaluation

namespace Machine

variable {before after : Machine}

theorem Alike.mark (machine : Machine) (span : Span) : machine.Alike (machine.mark span) :=
  ⟨rfl, ⟨rfl, rfl, (Frame.Alike.refl machine.current).scopes⟩,
    (CallStack.Alike.refl machine.stack).callers⟩

theorem Alike.store (machine : Machine) (site : Site) (value : Value) :
    machine.Alike (machine.store site value) :=
  ⟨rfl, .store machine site value⟩

theorem Alike.popScope {scope : Scope} (alike : (before.pushScope scope).Alike after) :
    before.Alike after.popScope :=
  ⟨alike.depth, alike.stack.current.popScope, alike.stack.callers⟩

theorem Extended.popScope {scope : Scope} (extended : (before.pushScope scope).Extended after) :
    before.Completed after.popScope :=
  ⟨extended.depth, extended.current.popScope, extended.callers⟩

/-- Taking off the frame of a call leaves the frames below it as they were but
for values. -/
theorem Extended.popFrame {frame : Frame} (extended : (before.pushFrame frame).Extended after) :
    before.Alike after.popFrame := by
  obtain ⟨depth, -, callers⟩ := extended
  obtain ⟨⟨currentAfter, callersAfter⟩, depthAfter, lastValue, emitted⟩ := after
  simp only [Machine.pushFrame, CallStack.push, CallStack.frames] at callers
  cases callers with
  | cons current callers => exact ⟨depth, current.toAlike, callers⟩

theorem Extended.of_current {frame : Frame} (machine : Machine)
    (extended : machine.current.Extended frame) :
    machine.Extended (machine.modifyCurrent fun _ => frame) :=
  ⟨rfl, extended, (CallStack.Alike.refl machine.stack).callers⟩

theorem Extended.leaveLoop (extended : before.Extended after) :
    (before.unsetFlags .onlyLoop).Extended (after.unsetFlags .onlyLoop) :=
  ⟨extended.depth, extended.current.leaveLoop, extended.callers⟩

theorem unsetLoop_setLoop (machine : Machine) :
    (machine.setFlags .onlyLoop).unsetFlags .onlyLoop = machine.unsetFlags .onlyLoop := by
  have frames := Frame.unsetLoop_setLoop machine.current
  simp only [Machine.setFlags, Machine.unsetFlags, Machine.modifyCurrent,
    CallStack.modifyCurrent, Machine.current] at frames ⊢
  rw [frames]

end Machine

section Nodes

variable {evaluate : Expression → Action Value} {execute : Statement → Action Flow}
  (evaluated : ∀ expression, (evaluate expression).Within Machine.Alike)
  (executed : ∀ statement, (execute statement).Within Machine.Extended)

/-! ## Expressions -/

include evaluated in
theorem usedValue_alike (expression : Expression) :
    (usedValue evaluate expression).Within Machine.Alike := by
  intro machine
  simp only [usedValue, Action.ensures_bind, Action.ensures_read, Action.ensures_update,
    Action.ensures_andFinally]
  refine (evaluated expression _).mono fun value after alike => ?_
  have restored : machine.current.Alike
      (if machine.current.innermostFlags.expectValue then after.current
        else after.current.unsetFlags .onlyExpectValue) :=
    alike.stack.current.restoreExpected
  split
  · next expected =>
    rw [if_pos expected] at restored
    exact ⟨alike.depth, restored, alike.stack.callers⟩
  · next unexpected =>
    rw [if_neg unexpected] at restored
    exact ⟨alike.depth, restored, alike.stack.callers⟩

include evaluated in
theorem condition_alike (expression : Expression) :
    (condition evaluate expression).Within Machine.Alike :=
  .bind (usedValue_alike evaluated expression) fun value => .ofOption _ value.asFact?

include evaluated in
theorem pipeParts_alike (carried : Value) (success failure : Option Expression) :
    (pipeParts evaluate carried success failure).Within Machine.Alike := by
  have failureAlike : (pipeFailure evaluate failure).Within Machine.Alike := by
    cases failure with
    | none => exact .pure Value.nothing
    | some failure => exact evaluated failure
  unfold pipeParts
  split
  · exact failureAlike
  · cases success with
    | none => exact .pure Value.nothing
    | some success =>
        refine .bind (evaluated success) fun value => ?_
        split
        · exact failureAlike
        · exact .pure value

include evaluated in
theorem pipe_alike (first : Expression) (success failure : Option Expression) :
    (pipe evaluate first success failure).Within Machine.Alike := by
  refine .bind (usedValue_alike evaluated first) fun carried => ?_
  intro machine
  simp only [Action.ensures_bind, Action.ensures_update, Action.ensures_andFinally]
  exact (pipeParts_alike evaluated carried success failure _).mono
    fun _ after alike => alike.popScope

include evaluated in
theorem assign_alike (target value : Expression) :
    (assign evaluate target value).Within Machine.Alike := by
  unfold assign
  split
  · exact .fail _
  · split
    · exact .fail _
    · refine .bind (.read _) fun found => ?_
      split
      · exact .fail _
      · next owner binding =>
        split
        · refine .bind (usedValue_alike evaluated value) fun value => .bind ?_ fun _ => .pure _
          intro machine
          rw [Action.ensures_storeAt]
          intro _
          exact .store machine owner _
        · exact .fail _

/-! ## Calls -/

include evaluated in
theorem bindArguments_alike (arguments : List Expression) (parameters : List Declarator) :
    (bindArguments evaluate arguments parameters).Within Machine.Alike := by
  induction arguments generalizing parameters with
  | nil => exact .pure []
  | cons argument arguments ih =>
      cases parameters with
      | nil => exact .pure []
      | cons parameter parameters =>
          exact .bind (.read _) fun site => .bind (evaluated argument) fun value =>
            .bind (ih parameters) fun bound => .pure _

theorem textRoutine_alike (operation : String → Option String) :
    (textRoutine operation : Action Value).Within Machine.Alike :=
  .bind (.valueOf "t") fun _ => .pure _

include evaluated in
theorem splitRoutine_alike (operation : String → String × Option String)
    (left right : String) :
    (splitRoutine evaluate operation left right).Within Machine.Alike :=
  .bind (.valueOf "source") fun _ => .bind (.read _) fun _ =>
    .bind (evaluated _) fun _ => evaluated _

theorem emit_alike (emission : Emission) :
    (update (·.emit emission) : Action Unit).Within Machine.Alike :=
  .update fun machine => ⟨rfl, .refl machine.stack⟩

include evaluated in
theorem runRoutine_alike (routine : Routine) :
    (runRoutine evaluate routine).Within Machine.Alike := by
  cases routine with
  | print => exact .bind (.valueOf "t") fun _ => .bind (emit_alike _) fun _ => .pure _
  | quit => exact .halt .quit
  | first => exact textRoutine_alike _
  | last => exact textRoutine_alike _
  | body => exact textRoutine_alike _
  | tail => exact textRoutine_alike _
  | split => exact splitRoutine_alike evaluated _ _ _
  | backSplit => exact splitRoutine_alike evaluated _ _ _
  | fizzBuzz =>
      refine .bind (.valueOf "n") fun value => ?_
      split
      · exact .bind (emit_alike _) fun _ => .pure _
      · exact .pure _

theorem fallThrough_alike (signature : FunctionSignature) :
    (fallThrough signature : Action Value).Within Machine.Alike := by
  unfold fallThrough
  split
  · exact .read _
  · exact .bind (.read _) fun _ => .bind (emit_alike _) fun _ => .read _

include executed in
theorem runBody_extended (signature : FunctionSignature) (body : Statement) :
    (runBody execute signature body).Within Machine.Extended := by
  refine .bind (executed body) fun flow => ?_
  cases flow with
  | giveBack value => exact .pure value
  | normal => exact (fallThrough_alike signature).mono fun _ _ => Machine.Alike.extended
  | skip => exact (fallThrough_alike signature).mono fun _ _ => Machine.Alike.extended
  | stop => exact (fallThrough_alike signature).mono fun _ _ => Machine.Alike.extended

/-- What runs in a frame of its own leaves the frames below it alike. -/
theorem inFrame_alike {α β : Type} {running : Action α} (runs : running.Within Machine.Extended)
    (span : Span) (frame : Frame) (result : α → β) :
    (do
      update (·.mark span)
      update (·.pushFrame frame)
      let value ← running
      update (·.popFrame)
      return result value : Action β).Within Machine.Alike := by
  refine .bind (.update fun machine => .mark machine span) fun _ => ?_
  intro machine
  simp only [Action.ensures_bind, Action.ensures_update, Action.ensures_pure]
  exact (runs _).mono fun _ after extended => extended.popFrame

include evaluated executed in
theorem callFunction_alike (signature : FunctionSignature) (body : Statement)
    (routine : Option Routine) (arguments : List Expression) (span : Span) :
    (callFunction evaluate execute signature body routine arguments span).Within
      Machine.Alike := by
  refine .bind (.read _) fun expected => ?_
  split
  · exact .fail _
  · refine .bind (bindArguments_alike evaluated arguments signature.parameters) fun _ => ?_
    cases routine with
    | none => exact inFrame_alike (runBody_extended executed signature body) span _ _
    | some routine =>
        exact inFrame_alike
          ((runRoutine_alike evaluated routine).mono fun _ _ => Machine.Alike.extended) span _ _

include evaluated executed in
theorem callPattern_alike (signature : PatternSignature) (body : Statement)
    (routine : Option Routine) (argument : Expression) (span : Span) :
    (callPattern evaluate execute signature body routine argument span).Within
      Machine.Alike := by
  refine .bind (.read _) fun site => .bind (usedValue_alike evaluated argument) fun value => ?_
  cases routine with
  | none => exact inFrame_alike (executed body) span _ _
  | some routine =>
      exact inFrame_alike
        ((runRoutine_alike evaluated routine).mono fun _ _ => Machine.Alike.extended) span _ _

include evaluated executed in
theorem call_alike (name : String) (arguments : List Expression) (span : Span) :
    (call evaluate execute name arguments span).Within Machine.Alike := by
  refine .bind (.read _) fun resolved => .bind (.ofExcept _) fun found => ?_
  cases found with
  | none => exact .fail _
  | some entry =>
      obtain ⟨callable, routine⟩ := entry
      cases callable with
      | function signature body =>
          exact callFunction_alike evaluated executed signature body routine arguments span
      | pattern signature body =>
          cases arguments with
          | nil => exact .pure Value.nothing
          | cons argument _ =>
              exact callPattern_alike evaluated executed signature body routine argument span

/-! ## Nodes of expressions -/

include evaluated executed in
theorem expressionNode_alike (expression : Expression) :
    (expressionNode evaluate execute expression).Within Machine.Alike := by
  cases expression with
  | literal span value => exact .pure value
  | identifier span name => exact .valueOf name
  | unary span operator operand =>
      exact .bind (usedValue_alike evaluated operand) fun _ => .pure _
  | binary span operator left right =>
      exact .bind (usedValue_alike evaluated left) fun _ =>
        .bind (usedValue_alike evaluated right) fun _ => .ofExcept _
  | ternary span test yes no =>
      refine .bind (condition_alike evaluated test) fun holds => ?_
      split
      · exact evaluated yes
      · cases no with
        | none => exact .pure Value.nothing
        | some no => exact evaluated no
  | pipe span first success failure => exact pipe_alike evaluated first success failure
  | noneTest span operand =>
      exact .bind (usedValue_alike evaluated operand) fun _ => .pure _
  | assign span target value => exact assign_alike evaluated target value
  | call span name arguments => exact call_alike evaluated executed name arguments span

include evaluated executed in
theorem expressionStep_alike (maxDepth : Nat) (expression : Expression) :
    (expressionStep evaluate execute maxDepth expression).Within Machine.Alike := by
  intro machine
  simp only [expressionStep, Action.ensures_bind, Action.ensures_enter, Action.ensures_update,
    Action.ensures_leave, Action.ensures_pure]
  intro _
  refine (expressionNode_alike evaluated executed expression _).mono fun value left alike => ?_
  refine ⟨?_, (Machine.Alike.mark machine expression.span).stack.trans alike.stack⟩
  -- the level counted at the start is the one given back at the end
  have counted : left.depth = machine.depth + 1 := alike.depth
  simp [counted]

/-! ## Statements -/

theorem addVariable_extended (binding : Variable) :
    (addVariable binding : Action Unit).Within Machine.Extended := by
  intro machine
  unfold addVariable
  simp only [Action.ensures_bind, Action.ensures_read]
  cases declared : machine.current.declareVariable binding with
  | error cause => exact Action.ensures_fail cause machine _
  | ok frame =>
      rw [Action.ensures_update]
      exact .of_current machine (.declareVariable declared)

include evaluated in
theorem declareVariable_extended (declarator : Declarator) (initial : Option Expression) :
    (declareVariable evaluate declarator initial).Within Machine.Extended := by
  unfold declareVariable
  split
  · exact .fail _
  · cases initial with
    | none => exact .bind (.pure _) addVariable_extended
    | some initial =>
        exact .bind ((usedValue_alike evaluated initial).mono fun _ _ => Machine.Alike.extended)
          fun value => .bind (.pure _) addVariable_extended

theorem declareCallable_extended (declared : Callable) :
    (declareCallable declared : Action Unit).Within Machine.Extended := by
  refine .bind (.read _) fun _ => .bind (.ofExcept _) fun _ => ?_
  intro machine
  simp only [Action.ensures_bind, Action.ensures_read, Action.ensures_update]
  rw [Action.ensures_ofExcept]
  intro _ _
  exact .of_current machine (.declareCallable machine.current declared)

include executed in
theorem block_extended (statements : List Statement) :
    (block execute statements).Within Machine.Extended := by
  induction statements with
  | nil => exact .pure _
  | cons statement statements ih =>
      refine .bind (executed statement) fun flow => ?_
      cases flow with
      | normal =>
          refine .bind (.read _) fun ended => ?_
          split
          · exact .pure _
          · exact ih
      | skip => exact .pure _
      | stop => exact .pure _
      | giveBack value => exact .pure _

include evaluated executed in
theorem conditional_extended (test : Expression) (positive : Statement)
    (negative : Option Statement) :
    (conditional evaluate execute test positive negative).Within Machine.Extended := by
  refine .bind ((condition_alike evaluated test).mono fun _ _ => Machine.Alike.extended)
    fun holds => ?_
  split
  · refine .bind (.update fun machine => ?_) fun _ => executed positive
    exact ⟨rfl, .setLastCondition machine.current, (CallStack.Alike.refl machine.stack).callers⟩
  · refine .bind (.update fun machine => ?_) fun _ => ?_
    · exact ⟨rfl, .unsetLastCondition machine.current,
        (CallStack.Alike.refl machine.stack).callers⟩
    · cases negative with
      | none => exact .pure _
      | some negative => exact executed negative

theorem Machine.Extended.unsetLoop (machine : Machine) :
    machine.Extended (machine.unsetFlags .onlyLoop) :=
  ⟨rfl, .unsetLoop machine.current, (CallStack.Alike.refl machine.stack).callers⟩

include evaluated executed in
/-- The rounds of a loop extend the machine that has left the loop: the flag
of the loop is set while its body runs, and is cleared however it ends. -/
theorem loopStep_extended {again : Expression → Statement → Action Flow}
    (repeated : ∀ test body machine, (again test body).Ensures machine
      fun _ after => (machine.unsetFlags .onlyLoop).Extended after)
    (test : Expression) (body : Statement) (machine : Machine) :
    (loopStep evaluate execute again test body).Ensures machine
      fun _ after => (machine.unsetFlags .onlyLoop).Extended after := by
  simp only [loopStep, Action.ensures_bind]
  refine (condition_alike evaluated test machine).mono fun holds tested alike => ?_
  have left : (machine.unsetFlags .onlyLoop).Extended (tested.unsetFlags .onlyLoop) :=
    alike.extended.leaveLoop
  split
  · simp only [Action.ensures_bind, Action.ensures_update]
    refine (executed body _).mono fun flow after extended => ?_
    have leftAfter : (machine.unsetFlags .onlyLoop).Extended (after.unsetFlags .onlyLoop) := by
      have body := extended.leaveLoop
      rw [Machine.unsetLoop_setLoop] at body
      exact left.trans body
    cases flow with
    | normal => exact (repeated test body after).mono fun _ _ next => leftAfter.trans next
    | skip => exact (repeated test body after).mono fun _ _ next => leftAfter.trans next
    | stop => simpa using leftAfter
    | giveBack value => simpa using leftAfter
  · simpa using left

theorem loopJump_extended (flow : Flow) (illegal : RuntimeCause) :
    (loopJump flow illegal : Action Flow).Within Machine.Extended := by
  refine .bind (.read _) fun frame => ?_
  split
  · exact .fail _
  · split
    · exact .pure flow
    · exact .fail _

include evaluated in
theorem giveBack_extended (value : Option Expression) :
    (giveBack evaluate value).Within Machine.Extended := by
  refine .bind (.read _) fun frame => ?_
  split
  · exact .fail _
  · split
    · exact .fail _
    · split
      · exact .fail _
      · exact .pure _
      · exact .fail _
      · next value _ =>
        exact .bind ((usedValue_alike evaluated value).mono fun _ _ => Machine.Alike.extended)
          fun _ => .pure _

/-- What runs in a scope of its own completes the current frame at most. -/
theorem inScope_completed {running : Action Flow} (runs : running.Within Machine.Extended)
    (scope : Scope) :
    (do
      update (·.pushScope scope)
      andFinally running (·.popScope) : Action Flow).Within Machine.Completed := by
  intro machine
  simp only [Action.ensures_bind, Action.ensures_update, Action.ensures_andFinally]
  exact (runs _).mono fun _ after extended => extended.popScope

include executed in
theorem compound_completed (children : List Statement) :
    (compound execute children).Within Machine.Completed :=
  inScope_completed (block_extended executed children) .empty

include evaluated executed in
theorem matching_extended (span : Span) (subject : Expression) (body : Statement) :
    (matching evaluate execute span subject body).Within Machine.Extended :=
  .bind ((usedValue_alike evaluated subject).mono fun _ _ => Machine.Alike.extended)
    fun value => (inScope_completed (executed body) (subjectScope span value)).mono
      fun _ _ => Machine.Completed.extended

include evaluated executed in
theorem statementNode_extended {rounds : Expression → Statement → Action Flow}
    (repeated : ∀ test body, (rounds test body).Within Machine.Extended)
    (statement : Statement) :
    (statementNode evaluate execute rounds statement).Within Machine.Extended := by
  cases statement with
  | expression content =>
      exact .bind ((evaluated content).mono fun _ _ => Machine.Alike.extended) fun _ => .pure _
  | «variable» declarator initial =>
      exact .bind (declareVariable_extended evaluated declarator initial) fun _ => .pure _
  | function signature body =>
      exact .bind (declareCallable_extended _) fun _ => .pure _
  | pattern signature body =>
      exact .bind (declareCallable_extended _) fun _ => .pure _
  | compound span children =>
      exact (compound_completed executed children).mono fun _ _ => Machine.Completed.extended
  | conditional span test positive negative =>
      exact conditional_extended evaluated executed test positive negative
  | loop span test body => exact repeated test body
  | skip span => exact loopJump_extended _ _
  | stop span => exact loopJump_extended _ _
  | giveBack span value => exact giveBack_extended evaluated value
  | matching span subject body => exact matching_extended evaluated executed span subject body
  | empty span => exact .pure _

/-- A statement is executed one level deeper, and the level is given back. -/
theorem ensures_statementStep {rounds : Expression → Statement → Action Flow}
    (maxDepth : Nat) (statement : Statement) (machine : Machine)
    (property : Flow → Machine → Prop) :
    (statementStep evaluate execute rounds maxDepth statement).Ensures machine property ↔
      (machine.depth + 1 < maxDepth →
        (statementNode evaluate execute rounds statement).Ensures
          ({ machine with depth := machine.depth + 1 }.mark statement.span)
          fun flow after => property flow { after with depth := after.depth - 1 }) := by
  simp only [statementStep, Action.ensures_bind, Action.ensures_enter, Action.ensures_update,
    Action.ensures_leave, Action.ensures_pure]

include evaluated executed in
theorem statementStep_extended {rounds : Expression → Statement → Action Flow}
    (repeated : ∀ test body, (rounds test body).Within Machine.Extended) (maxDepth : Nat)
    (statement : Statement) :
    (statementStep evaluate execute rounds maxDepth statement).Within Machine.Extended := by
  intro machine
  rw [ensures_statementStep]
  intro _
  refine (statementNode_extended evaluated executed repeated statement _).mono
    fun flow after extended => ?_
  have marked := (Machine.Alike.mark machine statement.span).extended
  have counted : after.depth = machine.depth + 1 := extended.depth
  exact ⟨by simp [counted], marked.current.trans extended.current,
    forall₂_trans marked.callers extended.callers Frame.AlikeInPlace.trans⟩

end Nodes

/-! ## Whole evaluations -/

/-- Expressions leave a machine that is alike, statements one that is extended,
and the rounds of a loop extend a machine that has left the loop. -/
theorem evaluation_within (maxDepth fuel : Nat) :
    (∀ expression, (evaluate maxDepth fuel expression : Action Value).Within Machine.Alike) ∧
    (∀ statement, (execute maxDepth fuel statement : Action Flow).Within Machine.Extended) ∧
    (∀ test body machine, (executeRounds maxDepth fuel test body : Action Flow).Ensures machine
      fun _ after => (machine.unsetFlags .onlyLoop).Extended after) := by
  induction fuel with
  | zero =>
      refine ⟨fun expression => ?_, fun statement => ?_, fun test body machine => ?_⟩
      · exact .exhaust
      · exact .exhaust
      · exact Action.ensures_exhaust machine _
  | succ fuel ih =>
      obtain ⟨evaluated, executed, repeated⟩ := ih
      have rounds (test : Expression) (body : Statement) :
          (executeRounds maxDepth fuel test body : Action Flow).Within Machine.Extended :=
        fun machine => (repeated test body machine).mono
          fun _ _ extended => (Machine.Extended.unsetLoop machine).trans extended
      refine ⟨fun expression => ?_, fun statement => ?_, fun test body machine => ?_⟩
      · exact expressionStep_alike evaluated executed maxDepth expression
      · exact statementStep_extended evaluated executed rounds maxDepth statement
      · exact loopStep_extended evaluated executed repeated test body machine

theorem evaluate_alike (maxDepth fuel : Nat) (expression : Expression) :
    (evaluate maxDepth fuel expression : Action Value).Within Machine.Alike :=
  (evaluation_within maxDepth fuel).1 expression

theorem execute_extended (maxDepth fuel : Nat) (statement : Statement) :
    (execute maxDepth fuel statement : Action Flow).Within Machine.Extended :=
  (evaluation_within maxDepth fuel).2.1 statement

/-- A block closes the scope it opens: all scopes of the current frame keep
their flags and their variables. -/
theorem execute_compound_completed (maxDepth fuel : Nat) (span : Span)
    (children : List Statement) :
    (execute maxDepth fuel (.compound span children) : Action Flow).Within
      Machine.Completed := by
  cases fuel with
  | zero => exact .exhaust
  | succ fuel =>
      intro machine
      rw [execute, ensures_statementStep]
      intro _
      refine (compound_completed (execute_extended maxDepth fuel) children _).mono
        fun flow after completed => ?_
      have counted : after.depth = machine.depth + 1 := completed.depth
      exact ⟨by simp [counted],
        ⟨completed.current.name, completed.current.returns, completed.current.scopes⟩,
        completed.callers⟩

/-- Whatever finishes restores what it opened.  An expression changes values
only; a statement extends the innermost scope and completes declarations of the
scopes around it; a block keeps the flags and the variables of every scope. -/
theorem finished_evaluation_keeps_structure (maxDepth fuel : Nat) :
    (∀ (expression : Expression) (machine after : Machine) (value : Value),
      (evaluate maxDepth fuel expression : Action Value) machine = .finished value after →
        machine.Alike after) ∧
    (∀ (statement : Statement) (machine after : Machine) (flow : Flow),
      (execute maxDepth fuel statement : Action Flow) machine = .finished flow after →
        machine.Extended after) ∧
    (∀ (span : Span) (children : List Statement) (machine after : Machine) (flow : Flow),
      (execute maxDepth fuel (.compound span children) : Action Flow) machine =
          .finished flow after →
        machine.Completed after) := by
  refine ⟨?_, ?_, ?_⟩
  · intro expression machine after value finished
    exact evaluate_alike maxDepth fuel expression machine value after finished
  · intro statement machine after flow finished
    exact execute_extended maxDepth fuel statement machine flow after finished
  · intro span children machine after flow finished
    exact execute_compound_completed maxDepth fuel span children machine flow after finished

/-- A block that declares a variable and assigns it behind a condition, in a
program that has just started. -/
theorem finished_block_keeps_structure :
    let place : Span := .firstCharacter
    let assignment : Expression :=
      .assign place (.identifier place "x") (.literal place (.fact true))
    let test : Statement :=
      .conditional place (.literal place (.fact true)) (.expression assignment) none
    let declaration : Statement := .variable ⟨place, true, .fact, "x"⟩ none
    let declared : Machine := Machine.initial.modifyCurrent
      (·.insertVariable (.uninitialized ⟨place, true, .fact, "x"⟩))
    (∃ value after, (evaluate 9 6 assignment : Action Value) declared = .finished value after ∧
      declared.Alike after) ∧
    (∃ flow after, (execute 9 6 test : Action Flow) declared = .finished flow after ∧
      declared.Extended after) ∧
    (∃ flow after, (execute 9 6 (.compound place [declaration, test]) : Action Flow)
        Machine.initial = .finished flow after ∧
      Machine.initial.Completed after) := by
  intro place assignment test declaration declared
  obtain ⟨expressions, statements, blocks⟩ := finished_evaluation_keeps_structure 9 6
  refine ⟨⟨_, _, rfl, expressions assignment declared _ _ rfl⟩,
    ⟨_, _, rfl, statements test declared _ _ rfl⟩,
    ⟨_, _, rfl, blocks place [declaration, test] Machine.initial _ _ rfl⟩⟩

end Plainspoken
