import Plainspoken.Evaluation.Statement

/-!
# Evaluation in two monads at once

Evaluation is written for every monad that has the steps on a machine.  A simulation
relates what is done in one such monad to what is done in another.  Its clauses ask no
more of the relation than evaluation needs: a node reads what does not depend on what
has been emitted, it changes the machine in one of the ways of `Machine.Change`, and it
meets the bodies of callables only by declaring them and by resolving a call.

A simulation may be limited to some statements.  They have to be closed under parts,
and then the bodies that calls lead to are among them as well.

Nodes respect every simulation.  Whole evaluations respect those that are also respected
by the counting of levels around a node.
-/

namespace Plainspoken

open Stepping Evaluation

def Callable.body : Callable → Statement
  | .function _ body | .pattern _ body => body

/-- The statements that a statement is made of, bodies that it declares included. -/
def Statement.parts : Statement → List Statement
  | .function _ body | .pattern _ body | .loop _ _ body | .matching _ _ body => [body]
  | .compound _ children => children
  | .conditional _ _ positive negative => positive :: negative.toList
  | .expression _ | .variable _ _ | .skip _ | .stop _ | .giveBack _ _ | .empty _ => []

/-- What is read off a machine does not depend on what has been emitted. -/
def Machine.IgnoresEmitted {α : Type} (view : Machine → α) : Prop :=
  ∀ machine transcript, view { machine with emitted := transcript } = view machine

/-- The changes that a node makes to the machine, apart from its declarations.  No
callables are declared in a scope or a frame that it opens. -/
inductive Machine.Change : (Machine → Machine) → Prop where
  | marked (span : Span) : Change (·.mark span)
  | flagsSet (flags : Flags) : Change (·.setFlags flags)
  | flagsUnset (flags : Flags) : Change (·.unsetFlags flags)
  | flagsRestored (wasSet : Bool) (flags : Flags) :
      Change fun machine => if wasSet then machine else machine.unsetFlags flags
  | scopeOpened {scope : Scope} (bare : scope.entries = []) : Change (·.pushScope scope)
  | scopeClosed : Change (·.popScope)
  | frameOpened {frame : Frame} (bare : ∀ scope ∈ frame.scopes, scope.entries = []) :
      Change (·.pushFrame frame)
  | frameClosed : Change (·.popFrame)
  | stored (site : Site) (value : Value) : Change (·.store site value)
  | remembered (value : Value) : Change ({ · with lastValue := value })
  | linePrinted (text : String) : Change (·.emit (.line text))
  | returnMissed (span : Span) (name : String) :
      Change (·.emit (.event (.warning .missingReturn span [.text name])))

/-- A relation between what is done in two monads that the steps of a node respect, if
all statements are among those covered. -/
structure Simulation (M N : Type → Type) [Stepping M] [Stepping N] where
  Related {α : Type} : M α → N α → Prop
  Covers : Statement → Prop
  parts {statement part : Statement} : Covers statement → part ∈ statement.parts → Covers part
  pure {α : Type} (result : α) : Related (pure result) (pure result)
  bind {α β : Type} {first : M α} {first' : N α} {second : α → M β} {second' : α → N β} :
    Related first first' → (∀ result, Related (second result) (second' result)) →
      Related (first >>= second) (first' >>= second')
  halt {α : Type} (reason : Halt) : Related (halt reason : M α) (halt reason : N α)
  read {α : Type} {view : Machine → α} (ignores : Machine.IgnoresEmitted view) :
    Related (read view) (read view)
  update {change : Machine → Machine} (changes : Machine.Change change) :
    Related (update change) (update change)
  andFinally {α : Type} {action : M α} {action' : N α} {change : Machine → Machine}
    (changes : Machine.Change change) :
    Related action action' → Related (andFinally action change) (andFinally action' change)
  addVariable (binding : Variable) : Related (addVariable binding) (addVariable binding)
  declareCallable {declared : Callable} (covered : Covers declared.body) :
    Related (declareCallable declared) (declareCallable declared)
  /-- A call leads to a body that is covered. -/
  resolving {α : Type} (name : String) (arity : Nat) {second : Option Entry → M α}
    {second' : Option Entry → N α} :
    (∀ found : Option Entry, (∀ entry ∈ found, Covers entry.callable.body) →
      Related (second found) (second' found)) →
    Related (Stepping.read (resolve · name arity) >>= fun resolved =>
        ofExcept resolved >>= second)
      (Stepping.read (resolve · name arity) >>= fun resolved => ofExcept resolved >>= second')

/-! ## Scopes and frames without callables -/

namespace Frame

theorem entries_modifyInnermost {frame : Frame} {change : Scope → Scope}
    (kept : ∀ scope : Scope, (change scope).entries = scope.entries)
    (bare : ∀ scope ∈ frame.scopes, scope.entries = []) :
    ∀ scope ∈ (frame.modifyInnermost change).scopes, scope.entries = [] := by
  unfold modifyInnermost
  cases scopes : frame.scopes with
  | nil => simp
  | cons inner outer =>
      rw [scopes, List.forall_mem_cons] at bare
      obtain ⟨innerBare, outerBare⟩ := bare
      exact List.forall_mem_cons.mpr ⟨(kept inner).trans innerBare, outerBare⟩

theorem entries_start (name : String) (span : Span) (returns : ValueType) :
    ∀ scope ∈ (start name span returns).scopes, scope.entries = [] :=
  List.forall_mem_singleton.mpr rfl

theorem entries_functionFrame (signature : FunctionSignature) (span : Span)
    (parameters : List Variable) :
    ∀ scope ∈ (functionFrame signature span parameters).scopes, scope.entries = [] := by
  refine entries_modifyInnermost (fun _ => rfl) ?_
  have started := entries_start signature.name span signature.returns
  generalize start signature.name span signature.returns = frame at started
  induction parameters generalizing frame with
  | nil => exact started
  | cons parameter parameters ih => exact ih _ (entries_modifyInnermost (fun _ => rfl) started)

theorem entries_patternFrame (signature : PatternSignature) (span : Span) (value : Value)
    (site : Option Site) :
    ∀ scope ∈ (patternFrame signature span value site).scopes, scope.entries = [] := by
  refine entries_modifyInnermost (fun _ => rfl) (entries_modifyInnermost (fun _ => rfl) ?_)
  exact entries_modifyInnermost (fun _ => rfl) (entries_start signature.name span .nothing)

end Frame

/-! ## Nodes -/

namespace Simulation

variable {M N : Type → Type} [Stepping M] [Stepping N] (steps : Simulation M N)

theorem fail {α : Type} (cause : RuntimeCause) :
    steps.Related (fail cause : M α) (fail cause : N α) :=
  steps.halt (.failed cause)

theorem ofExcept {α : Type} (computed : Except RuntimeCause α) :
    steps.Related (Stepping.ofExcept computed : M α) (Stepping.ofExcept computed : N α) := by
  cases computed with
  | ok result => exact steps.pure result
  | error cause => exact steps.fail cause

theorem ofOption {α : Type} (cause : RuntimeCause) (found : Option α) :
    steps.Related (ofOption cause found : M α) (ofOption cause found : N α) := by
  cases found with
  | some result => exact steps.pure result
  | none => exact steps.fail cause

theorem valueOf (name : String) :
    steps.Related (valueOf name : M Value) (valueOf name : N Value) :=
  steps.bind (steps.read fun _ _ => rfl) fun computed => steps.ofExcept computed

theorem storeAt (site : Site) (value : Value) :
    steps.Related (storeAt site value : M Unit) (storeAt site value : N Unit) := by
  refine steps.bind (steps.read fun _ _ => rfl) fun lives => ?_
  split
  · exact steps.update (.stored site value)
  · exact steps.fail _

section Nodes

variable {evaluate : Expression → M Value} {evaluate' : Expression → N Value}
  {execute : Statement → M Flow} {execute' : Statement → N Flow}
  (evaluated : ∀ expression, steps.Related (evaluate expression) (evaluate' expression))
  (executed : ∀ statement, steps.Covers statement →
    steps.Related (execute statement) (execute' statement))

/-! ### Expressions -/

include evaluated in
theorem usedValue (expression : Expression) :
    steps.Related (usedValue evaluate expression) (usedValue evaluate' expression) :=
  steps.bind (steps.read fun _ _ => rfl) fun expected =>
    steps.bind (steps.update (.flagsSet .onlyExpectValue)) fun _ =>
      steps.andFinally (.flagsRestored expected .onlyExpectValue) (evaluated expression)

include evaluated in
theorem condition (expression : Expression) :
    steps.Related (condition evaluate expression) (condition evaluate' expression) :=
  steps.bind (steps.usedValue evaluated expression) fun _ => steps.ofOption _ _

include evaluated in
theorem pipeFailure (failure : Option Expression) :
    steps.Related (pipeFailure evaluate failure) (pipeFailure evaluate' failure) := by
  cases failure with
  | none => exact steps.pure _
  | some failure => exact evaluated failure

include evaluated in
theorem pipeParts (carried : Value) (success failure : Option Expression) :
    steps.Related (pipeParts evaluate carried success failure)
      (pipeParts evaluate' carried success failure) := by
  unfold Evaluation.pipeParts
  split
  · exact steps.pipeFailure evaluated failure
  · cases success with
    | none => exact steps.pure _
    | some success =>
        refine steps.bind (evaluated success) fun value => ?_
        split
        · exact steps.pipeFailure evaluated failure
        · exact steps.pure _

include evaluated in
theorem pipe (first : Expression) (success failure : Option Expression) :
    steps.Related (pipe evaluate first success failure)
      (pipe evaluate' first success failure) :=
  steps.bind (steps.usedValue evaluated first) fun carried =>
    steps.bind (steps.update (.scopeOpened rfl)) fun _ =>
      steps.andFinally .scopeClosed (steps.pipeParts evaluated carried success failure)

include evaluated in
theorem assign (target value : Expression) :
    steps.Related (assign evaluate target value) (assign evaluate' target value) := by
  unfold Evaluation.assign
  split
  · exact steps.fail _
  · split
    · exact steps.fail _
    · refine steps.bind (steps.read fun _ _ => rfl) fun found => ?_
      split
      · exact steps.fail _
      · split
        · exact steps.bind (steps.usedValue evaluated value) fun _ =>
            steps.bind (steps.storeAt _ _) fun _ => steps.pure _
        · exact steps.fail _

/-! ### Calls -/

include evaluated in
theorem bindArguments (arguments : List Expression) (parameters : List Declarator) :
    steps.Related (bindArguments evaluate arguments parameters)
      (bindArguments evaluate' arguments parameters) := by
  induction arguments generalizing parameters with
  | nil => exact steps.pure _
  | cons argument arguments ih =>
      cases parameters with
      | nil => exact steps.pure _
      | cons parameter parameters =>
          exact steps.bind (steps.read fun _ _ => rfl) fun _ =>
            steps.bind (evaluated argument) fun _ =>
              steps.bind (ih parameters) fun _ => steps.pure _

theorem textRoutine (operation : String → Option String) :
    steps.Related (textRoutine operation : M Value) (textRoutine operation : N Value) :=
  steps.bind (steps.valueOf "t") fun _ => steps.pure _

include evaluated in
theorem splitRoutine (operation : String → String × Option String) (left right : String) :
    steps.Related (splitRoutine evaluate operation left right)
      (splitRoutine evaluate' operation left right) :=
  steps.bind (steps.valueOf "source") fun _ => steps.bind (steps.read fun _ _ => rfl) fun _ =>
    steps.bind (evaluated _) fun _ => evaluated _

include evaluated in
theorem runRoutine (routine : Routine) :
    steps.Related (runRoutine evaluate routine) (runRoutine evaluate' routine) := by
  cases routine with
  | print =>
      exact steps.bind (steps.valueOf "t") fun _ =>
        steps.bind (steps.update (.linePrinted _)) fun _ => steps.pure _
  | quit => exact steps.halt .quit
  | first => exact steps.textRoutine _
  | last => exact steps.textRoutine _
  | body => exact steps.textRoutine _
  | tail => exact steps.textRoutine _
  | split => exact steps.splitRoutine evaluated _ _ _
  | backSplit => exact steps.splitRoutine evaluated _ _ _
  | fizzBuzz =>
      refine steps.bind (steps.valueOf "n") fun value => ?_
      cases value.asNumber? with
      | none => exact steps.pure _
      | some number => exact steps.bind (steps.update (.linePrinted _)) fun _ => steps.pure _

theorem fallThrough (signature : FunctionSignature) :
    steps.Related (fallThrough signature : M Value) (fallThrough signature : N Value) := by
  unfold Evaluation.fallThrough
  split
  · exact steps.read fun _ _ => rfl
  · exact steps.bind (steps.read fun _ _ => rfl) fun _ =>
      steps.bind (steps.update (.returnMissed _ _)) fun _ => steps.read fun _ _ => rfl

include executed in
theorem runBody (signature : FunctionSignature) {body : Statement} (covered : steps.Covers body) :
    steps.Related (runBody execute signature body) (runBody execute' signature body) := by
  refine steps.bind (executed body covered) fun flow => ?_
  cases flow with
  | giveBack value => exact steps.pure _
  | normal => exact steps.fallThrough signature
  | skip => exact steps.fallThrough signature
  | stop => exact steps.fallThrough signature

include evaluated executed in
theorem callFunction (signature : FunctionSignature) {body : Statement}
    (covered : steps.Covers body) (routine : Option Routine) (arguments : List Expression)
    (span : Span) :
    steps.Related (callFunction evaluate execute signature body routine arguments span)
      (callFunction evaluate' execute' signature body routine arguments span) := by
  refine steps.bind (steps.read fun _ _ => rfl) fun expected => ?_
  split
  · exact steps.fail _
  · refine steps.bind (steps.bindArguments evaluated arguments signature.parameters)
      fun parameters => steps.bind (steps.update (.marked span)) fun _ =>
        steps.bind (steps.update (.frameOpened (Frame.entries_functionFrame _ _ parameters)))
          fun _ => ?_
    cases routine with
    | none =>
        exact steps.bind (steps.runBody executed signature covered) fun _ =>
          steps.bind (steps.update .frameClosed) fun _ => steps.pure _
    | some routine =>
        exact steps.bind (steps.runRoutine evaluated routine) fun _ =>
          steps.bind (steps.update .frameClosed) fun _ => steps.pure _

include evaluated executed in
theorem callPattern (signature : PatternSignature) {body : Statement}
    (covered : steps.Covers body) (routine : Option Routine) (argument : Expression)
    (span : Span) :
    steps.Related (callPattern evaluate execute signature body routine argument span)
      (callPattern evaluate' execute' signature body routine argument span) := by
  refine steps.bind (steps.read fun _ _ => rfl) fun site =>
    steps.bind (steps.usedValue evaluated argument) fun value =>
      steps.bind (steps.update (.marked span)) fun _ =>
        steps.bind (steps.update (.frameOpened (Frame.entries_patternFrame _ _ _ site))) fun _ => ?_
  cases routine with
  | none =>
      exact steps.bind (executed body covered) fun _ =>
        steps.bind (steps.update .frameClosed) fun _ => steps.pure _
  | some routine =>
      exact steps.bind (steps.runRoutine evaluated routine) fun _ =>
        steps.bind (steps.update .frameClosed) fun _ => steps.pure _

include evaluated executed in
theorem call (name : String) (arguments : List Expression) (span : Span) :
    steps.Related (call evaluate execute name arguments span)
      (call evaluate' execute' name arguments span) := by
  refine steps.resolving name arguments.length fun found covered => ?_
  cases found with
  | none => exact steps.fail _
  | some entry =>
      have bodyCovered := covered entry rfl
      obtain ⟨callable, routine⟩ := entry
      cases callable with
      | function signature body =>
          exact steps.callFunction evaluated executed signature bodyCovered routine arguments span
      | pattern signature body =>
          cases arguments with
          | nil => exact steps.pure _
          | cons argument _ =>
              exact steps.callPattern evaluated executed signature bodyCovered routine argument
                span

include evaluated executed in
/-- What stands at a node of an expression is evaluated in related ways. -/
theorem expressionNode (expression : Expression) :
    steps.Related (expressionNode evaluate execute expression)
      (expressionNode evaluate' execute' expression) := by
  cases expression with
  | literal span value => exact steps.pure _
  | identifier span name => exact steps.valueOf name
  | unary span operator operand =>
      exact steps.bind (steps.usedValue evaluated operand) fun _ => steps.pure _
  | binary span operator left right =>
      exact steps.bind (steps.usedValue evaluated left) fun _ =>
        steps.bind (steps.usedValue evaluated right) fun _ => steps.ofExcept _
  | ternary span test yes no =>
      refine steps.bind (steps.condition evaluated test) fun holds => ?_
      split
      · exact evaluated yes
      · cases no with
        | none => exact steps.pure _
        | some no => exact evaluated no
  | pipe span first success failure => exact steps.pipe evaluated first success failure
  | noneTest span operand =>
      exact steps.bind (steps.usedValue evaluated operand) fun _ => steps.pure _
  | assign span target value => exact steps.assign evaluated target value
  | call span name arguments => exact steps.call evaluated executed name arguments span

/-! ### Statements -/

include evaluated in
theorem declareVariable (declarator : Declarator) (initial : Option Expression) :
    steps.Related (declareVariable evaluate declarator initial)
      (declareVariable evaluate' declarator initial) := by
  unfold Evaluation.declareVariable
  split
  · exact steps.fail _
  · cases initial with
    | none => exact steps.bind (steps.pure _) steps.addVariable
    | some initial =>
        exact steps.bind (steps.usedValue evaluated initial) fun _ =>
          steps.bind (steps.pure _) steps.addVariable

include executed in
theorem block {statements : List Statement}
    (covered : ∀ statement ∈ statements, steps.Covers statement) :
    steps.Related (block execute statements) (block execute' statements) := by
  induction statements with
  | nil => exact steps.pure _
  | cons statement statements ih =>
      obtain ⟨first, others⟩ := List.forall_mem_cons.mp covered
      refine steps.bind (executed statement first) fun flow => ?_
      cases flow with
      | normal =>
          refine steps.bind (steps.read fun _ _ => rfl) fun ended => ?_
          split
          · exact steps.pure _
          · exact ih others
      | skip => exact steps.pure _
      | stop => exact steps.pure _
      | giveBack value => exact steps.pure _

include evaluated executed in
theorem conditional (test : Expression) {positive : Statement} {negative : Option Statement}
    (positiveCovered : steps.Covers positive)
    (negativeCovered : ∀ statement ∈ negative, steps.Covers statement) :
    steps.Related (conditional evaluate execute test positive negative)
      (conditional evaluate' execute' test positive negative) := by
  refine steps.bind (steps.condition evaluated test) fun holds => ?_
  split
  · exact steps.bind (steps.update (.flagsSet .onlyLastCondition)) fun _ =>
      executed positive positiveCovered
  · refine steps.bind (steps.update (.flagsUnset .onlyLastCondition)) fun _ => ?_
    cases negative with
    | none => exact steps.pure _
    | some negative => exact executed negative (negativeCovered negative rfl)

include evaluated executed in
theorem loopStep {again : Expression → Statement → M Flow}
    {again' : Expression → Statement → N Flow} (test : Expression) {body : Statement}
    (covered : steps.Covers body)
    (repeated : steps.Related (again test body) (again' test body)) :
    steps.Related (loopStep evaluate execute again test body)
      (loopStep evaluate' execute' again' test body) := by
  have leaves (flow : Flow) : steps.Related (do
      Stepping.update (·.unsetFlags .onlyLoop)
      return flow) (do
      Stepping.update (·.unsetFlags .onlyLoop)
      return flow) :=
    steps.bind (steps.update (.flagsUnset .onlyLoop)) fun _ => steps.pure flow
  refine steps.bind (steps.condition evaluated test) fun holds => ?_
  split
  · refine steps.bind (steps.update (.flagsSet .onlyLoop)) fun _ =>
      steps.bind (executed body covered) fun flow => ?_
    cases flow with
    | normal => exact repeated
    | skip => exact repeated
    | stop => exact leaves _
    | giveBack value => exact leaves _
  · exact leaves _

theorem loopJump (flow : Flow) (illegal : RuntimeCause) :
    steps.Related (loopJump flow illegal : M Flow) (loopJump flow illegal : N Flow) := by
  refine steps.bind (steps.read fun _ _ => rfl) fun frame => ?_
  split
  · exact steps.fail _
  · split
    · exact steps.pure _
    · exact steps.fail _

include evaluated in
theorem giveBack (value : Option Expression) :
    steps.Related (giveBack evaluate value) (giveBack evaluate' value) := by
  refine steps.bind (steps.read fun _ _ => rfl) fun frame => ?_
  split
  · exact steps.fail _
  · split
    · exact steps.fail _
    · split
      · exact steps.fail _
      · exact steps.pure _
      · exact steps.fail _
      · exact steps.bind (steps.usedValue evaluated _) fun _ => steps.pure _

include evaluated executed in
/-- What stands at a node of a statement is executed in related ways.  The rounds of a
loop matter only if the loop is covered. -/
theorem statementNode {rounds : Expression → Statement → M Flow}
    {rounds' : Expression → Statement → N Flow}
    (repeated : ∀ span test body, steps.Covers (.loop span test body) →
      steps.Related (rounds test body) (rounds' test body))
    {statement : Statement} (covered : steps.Covers statement) :
    steps.Related (statementNode evaluate execute rounds statement)
      (statementNode evaluate' execute' rounds' statement) := by
  have partCovered (part : Statement) (isPart : part ∈ statement.parts) : steps.Covers part :=
    steps.parts covered isPart
  cases statement with
  | expression content => exact steps.bind (evaluated content) fun _ => steps.pure _
  | «variable» declarator initial =>
      exact steps.bind (steps.declareVariable evaluated declarator initial) fun _ =>
        steps.pure _
  | function signature body =>
      exact steps.bind (steps.declareCallable (partCovered _ (List.mem_singleton.mpr rfl)))
        fun _ => steps.pure _
  | pattern signature body =>
      exact steps.bind (steps.declareCallable (partCovered _ (List.mem_singleton.mpr rfl)))
        fun _ => steps.pure _
  | compound span children =>
      exact steps.bind (steps.update (.scopeOpened rfl)) fun _ =>
        steps.andFinally .scopeClosed (steps.block executed fun _ member => partCovered _ member)
  | conditional span test positive negative =>
      apply steps.conditional evaluated executed test
      · exact partCovered _ List.mem_cons_self
      · intro alternative isNegative
        exact partCovered _ (List.mem_cons_of_mem _ (Option.mem_toList.mpr isNegative))
  | loop span test body => exact repeated span test body covered
  | skip span => exact steps.loopJump _ _
  | stop span => exact steps.loopJump _ _
  | giveBack span value => exact steps.giveBack evaluated value
  | matching span subject body =>
      exact steps.bind (steps.usedValue evaluated subject) fun _ =>
        steps.bind (steps.update (.scopeOpened rfl)) fun _ =>
          steps.andFinally .scopeClosed (executed body (partCovered _ (List.mem_singleton.mpr rfl)))
  | empty span => exact steps.pure _

end Nodes

/-! ## Whole evaluations -/

/-- The relation is respected by the counting of levels too, where the limits of the two
evaluations may be different ones, and when the fuel is exhausted. -/
structure Nests (maxDepth maxDepth' : Nat) : Prop where
  enter (span : Span) : steps.Related (enter maxDepth span) (enter maxDepth' span)
  leave : steps.Related leave leave
  exhaust {α : Type} : steps.Related (exhaust : M α) (exhaust : N α)

namespace Nests

variable {steps} {maxDepth maxDepth' : Nat} (nests : steps.Nests maxDepth maxDepth')

include nests

section Steps

variable {evaluate : Expression → M Value} {evaluate' : Expression → N Value}
  {execute : Statement → M Flow} {execute' : Statement → N Flow}
  (evaluated : ∀ expression, steps.Related (evaluate expression) (evaluate' expression))
  (executed : ∀ statement, steps.Covers statement →
    steps.Related (execute statement) (execute' statement))

include evaluated executed

theorem expressionStep (expression : Expression) :
    steps.Related (expressionStep evaluate execute maxDepth expression)
      (expressionStep evaluate' execute' maxDepth' expression) :=
  steps.bind (nests.enter _) fun _ => steps.bind (steps.update (.marked _)) fun _ =>
    steps.bind (steps.expressionNode evaluated executed expression) fun value =>
      steps.bind nests.leave fun _ => steps.bind (steps.update (.remembered value)) fun _ =>
        steps.pure _

theorem statementStep {rounds : Expression → Statement → M Flow}
    {rounds' : Expression → Statement → N Flow}
    (repeated : ∀ span test body, steps.Covers (.loop span test body) →
      steps.Related (rounds test body) (rounds' test body))
    {statement : Statement} (covered : steps.Covers statement) :
    steps.Related (statementStep evaluate execute rounds maxDepth statement)
      (statementStep evaluate' execute' rounds' maxDepth' statement) :=
  steps.bind (nests.enter _) fun _ => steps.bind (steps.update (.marked _)) fun _ =>
    steps.bind (steps.statementNode evaluated executed repeated covered) fun _ =>
      steps.bind nests.leave fun _ => steps.pure _

end Steps

/-- Expressions and covered statements are evaluated in related ways. -/
theorem evaluation (fuel : Nat) :
    (∀ expression, steps.Related (evaluate maxDepth fuel expression)
      (evaluate maxDepth' fuel expression)) ∧
    (∀ statement, steps.Covers statement → steps.Related (execute maxDepth fuel statement)
      (execute maxDepth' fuel statement)) ∧
    (∀ span test body, steps.Covers (.loop span test body) →
      steps.Related (executeRounds maxDepth fuel test body)
        (executeRounds maxDepth' fuel test body)) := by
  induction fuel with
  | zero => exact ⟨fun _ => nests.exhaust, fun _ _ => nests.exhaust, fun _ _ _ _ => nests.exhaust⟩
  | succ fuel ih =>
      obtain ⟨evaluated, executed, repeated⟩ := ih
      refine ⟨fun expression => ?_, fun statement covered => ?_, fun span test body covered => ?_⟩
      · exact nests.expressionStep evaluated executed expression
      · exact nests.statementStep evaluated executed repeated covered
      · have bodyCovered := steps.parts covered (List.mem_singleton.mpr rfl)
        exact steps.loopStep evaluated executed test bodyCovered (repeated span test body covered)

end Nests

end Simulation

end Plainspoken
