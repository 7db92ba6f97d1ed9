import Plainspoken.Proofs.Standing

/-!
# Reserved names are decided by standpoints

A program none of whose parameters has a reserved name is evaluated from its standpoints as
it is evaluated on the machine: the same machines are passed, and the end is the same.  So a
reserved name can be read where the own body binds it, and where the program itself is in
the middle of a pipe or a match that binds it.  Everywhere else reading it fails, whatever
the callers in between are in the middle of.

The proof goes through the evaluation node by node.  The two ways of evaluation do the same
from every machine that fits the standpoint, and the machine that they leave fits it again.
-/

namespace Plainspoken

open Stepping Evaluation

/-! ## Doing the same -/

/-- From the machines with one property the same is done, and what it finishes with has
another property. -/
def Tracing.Coincide {α : Type} (before : Machine → Prop) (first second : Tracing α)
    (after : α → Machine → Prop) : Prop :=
  ∀ machine, before machine → first machine = second machine ∧
    ∀ result later, second.action machine = .finished result later → after result later

namespace Tracing.Coincide

variable {α β : Type} {before : Machine → Prop}

theorem refl_of {action : Tracing α} {after : α → Machine → Prop}
    (holds : ∀ machine, before machine → ∀ result later,
      action.action machine = .finished result later → after result later) :
    Coincide before action action after :=
  fun machine initially => ⟨rfl, holds machine initially⟩

theorem pure_of {result : α} {after : α → Machine → Prop}
    (holds : ∀ machine, before machine → after result machine) :
    Coincide before (Pure.pure result) (Pure.pure result) after := by
  refine refl_of fun machine initially _ _ ends => ?_
  cases ends
  exact holds machine initially

theorem pure (result : α) :
    Coincide before (Pure.pure result) (Pure.pure result) fun _ => before :=
  pure_of fun _ holds => holds

theorem read_eq (view : Machine → α) :
    Coincide before (Stepping.read view) (Stepping.read view)
      fun result machine => before machine ∧ view machine = result := by
  refine refl_of fun machine initially _ _ ends => ?_
  cases ends
  exact ⟨initially, rfl⟩

theorem halt (reason : Halt) (after : α → Machine → Prop) :
    Coincide before (Stepping.halt reason) (Stepping.halt reason) after :=
  refl_of fun _ _ _ _ ends => by cases ends

theorem fail (cause : RuntimeCause) {after : α → Machine → Prop} :
    Coincide before (Stepping.fail cause) (Stepping.fail cause) after :=
  halt (.failed cause) after

theorem exhaust {after : α → Machine → Prop} :
    Coincide before Stepping.exhaust Stepping.exhaust after :=
  refl_of fun _ _ _ _ ends => by cases ends

theorem update {change : Machine → Machine} {after : Machine → Prop}
    (changed : ∀ machine, before machine → after (change machine)) :
    Coincide before (Stepping.update change) (Stepping.update change) fun _ => after := by
  refine refl_of fun machine initially _ _ ends => ?_
  cases ends
  exact changed machine initially

theorem mono {first second : Tracing α} {stronger after : α → Machine → Prop}
    (coincide : Coincide before first second stronger)
    (weakened : ∀ result machine, stronger result machine → after result machine) :
    Coincide before first second after := by
  intro machine initially
  obtain ⟨same, finishes⟩ := coincide machine initially
  exact ⟨same, fun result later ends => weakened result later (finishes result later ends)⟩

theorem read (view : Machine → α) :
    Coincide before (Stepping.read view) (Stepping.read view) fun _ => before :=
  (read_eq view).mono fun _ _ holds => holds.1

theorem bind {first first' : Tracing α} {second second' : α → Tracing β}
    {middle : α → Machine → Prop} {after : β → Machine → Prop}
    (firstCoincide : Coincide before first first' middle)
    (secondCoincide : ∀ result, Coincide (middle result) (second result) (second' result) after) :
    Coincide before (first >>= second) (first' >>= second') after := by
  intro machine initially
  obtain ⟨same, finishes⟩ := firstCoincide machine initially
  rw [action_bind]
  change andThen first second machine = andThen first' second' machine ∧
    ∀ result later, Action.andThen first'.action _ machine = _ → _
  unfold andThen Action.andThen
  unfold action at finishes ⊢
  rw [same]
  generalize first' machine = trace at finishes
  obtain ⟨passed, outcome⟩ := trace
  cases outcome with
  | finished result between =>
      obtain ⟨sameRest, restFinishes⟩ :=
        secondCoincide result between (finishes result between rfl)
      dsimp only
      exact ⟨by rw [sameRest], restFinishes⟩
  | halted reason later => exact ⟨rfl, fun _ _ ends => by cases ends⟩
  | exhausted => exact ⟨rfl, fun _ _ ends => by cases ends⟩

theorem andFinally {first second : Tracing α} {change : Machine → Machine}
    {middle after : Machine → Prop} (coincide : Coincide before first second fun _ => middle)
    (changed : ∀ machine, middle machine → after (change machine)) :
    Coincide before (Stepping.andFinally first change) (Stepping.andFinally second change)
      fun _ => after := by
  intro machine initially
  obtain ⟨same, finishes⟩ := coincide machine initially
  refine ⟨?_, fun result later ends => ?_⟩
  · change finallyChange first change machine = finallyChange second change machine
    unfold finallyChange
    rw [same]
  · rw [action_andFinally, Action.finished_andFinally] at ends
    obtain ⟨between, ended, rfl⟩ := ends
    exact changed between (finishes result between ended)

theorem ofExcept (computed : Except RuntimeCause α) :
    Coincide before (Stepping.ofExcept computed) (Stepping.ofExcept computed)
      fun result machine => before machine ∧ computed = .ok result := by
  cases computed with
  | ok result => exact pure_of fun _ holds => ⟨holds, rfl⟩
  | error cause => exact fail cause

theorem ofOption (cause : RuntimeCause) (found : Option α) :
    Coincide before (Stepping.ofOption cause found) (Stepping.ofOption cause found)
      fun _ => before := by
  cases found with
  | some result => exact pure result
  | none => exact fail cause

theorem valueOf (name : String) :
    Coincide before (Stepping.valueOf name) (Stepping.valueOf name) fun _ => before :=
  bind (read _) fun computed => (ofExcept computed).mono fun _ _ holds => holds.1

end Tracing.Coincide

/-- From every machine that fits the standpoint the same is done, and then the machine fits
it again. -/
def Tracing.Agree {α : Type} (program : Statement) (standpoint : Standpoint)
    (first second : Tracing α) : Prop :=
  Tracing.Coincide (Machine.Stands program standpoint) first second
    fun _ => Machine.Stands program standpoint

/-! ## Programs without parameters of reserved names -/

/-- No parameter of a function or pattern has a reserved name. -/
def Statement.Unreserving (program : Statement) : Prop :=
  ∀ callable : Callable, program.IsPart callable.declaration →
    ∀ parameter ∈ callable.parameters, isReservedName parameter.name = false

theorem Entry.From.parameters_free {program : Statement} {entry : Entry}
    (isFrom : entry.From program) (unreserving : program.Unreserving) :
    ∀ parameter ∈ entry.callable.parameters, isReservedName parameter.name = false := by
  rcases isFrom with ⟨routine, rfl⟩ | ⟨-, declared⟩
  · exact routine.parameters_unreserved
  · exact unreserving entry.callable declared

/-! ## Nodes -/

namespace Tracing

section Nodes

variable {program : Statement} {standpoint : Standpoint}
  {evaluate evaluate' : Expression → Tracing Value}
  {execute execute' : Statement → Tracing Flow}
  (evaluated : ∀ expression, Agree program standpoint (evaluate expression) (evaluate' expression))
  (executed : ∀ statement, program.IsPart statement →
    Agree program standpoint (execute statement) (execute' statement))

theorem enter_agree (maxDepth : Nat) (span : Span) :
    Agree program standpoint (enter maxDepth span) (enter maxDepth span) := by
  refine .bind (.update fun _ stands => stands.noted _ _ _) fun _ =>
    .bind (.read _) fun tooDeep => ?_
  split
  · exact .fail _
  · exact .pure _

theorem leave_agree : Agree program standpoint leave leave :=
  .update fun _ stands => stands.noted _ _ _

theorem emit_agree (emission : Emission) :
    Agree program standpoint (update (·.emit emission)) (update (·.emit emission)) :=
  .update fun _ stands => stands.noted _ _ _

/-! ### Expressions -/

theorem readAt_agree (name : String) :
    Agree program standpoint (readAt standpoint name) (valueOf name) := by
  unfold readAt
  split
  · next reserved =>
    intro machine stands
    have same : (valueOf name : Tracing Value) machine =
        (ofExcept (machine.valueOf name) : Tracing Value) machine := rfl
    obtain ⟨-, keeps⟩ := Coincide.valueOf name machine stands
    refine ⟨?_, keeps⟩
    -- what lookup finds on this machine is what the standpoint says
    rw [same, stands.valueOf reserved]
    split
    · rfl
    · split
      · rfl
      · rfl
  · exact .valueOf name

include evaluated in
theorem usedValue_agree (expression : Expression) :
    Agree program standpoint (usedValue evaluate expression) (usedValue evaluate' expression) := by
  refine .bind (.read _) fun expected => .bind (.update fun _ stands => stands.setFlags _) fun _ =>
    .andFinally (evaluated expression) fun machine stands => ?_
  split
  · exact stands
  · exact stands.unsetFlags _

include evaluated in
theorem condition_agree (expression : Expression) :
    Agree program standpoint (condition evaluate expression) (condition evaluate' expression) :=
  .bind (usedValue_agree evaluated expression) fun _ => .ofOption _ _

include evaluated in
theorem pipeParts_agree (carried : Value) (success failure : Option Expression) :
    Agree program standpoint (pipeParts evaluate carried success failure)
      (pipeParts evaluate' carried success failure) := by
  have failureAgrees : Agree program standpoint (pipeFailure evaluate failure)
      (pipeFailure evaluate' failure) := by
    cases failure with
    | none => exact .pure _
    | some failure => exact evaluated failure
  unfold pipeParts
  split
  · exact failureAgrees
  · cases success with
    | none => exact .pure _
    | some success =>
        refine .bind (evaluated success) fun value => ?_
        split
        · exact failureAgrees
        · exact .pure _

theorem storeAt_agree (site : Site) (value : Value) :
    Agree program standpoint (storeAt site value) (storeAt site value) := by
  refine .bind (.read _) fun lives => ?_
  split
  · exact .update fun _ stands => stands.store site value
  · exact .fail _

include evaluated in
theorem assign_agree (target value : Expression) :
    Agree program standpoint (assign evaluate target value) (assign evaluate' target value) := by
  unfold assign
  split
  · exact .fail _
  · split
    · exact .fail _
    · refine .bind (.read _) fun found => ?_
      split
      · exact .fail _
      · split
        · exact .bind (usedValue_agree evaluated value) fun _ =>
            .bind (storeAt_agree _ _) fun _ => .pure _
        · exact .fail _

/-! ### Calls -/

include evaluated in
theorem bindArguments_coincide (arguments : List Expression) {parameters : List Declarator}
    (free : ∀ parameter ∈ parameters, isReservedName parameter.name = false) :
    Coincide (Machine.Stands program standpoint) (bindArguments evaluate arguments parameters)
      (bindArguments evaluate' arguments parameters) fun bound machine =>
        machine.Stands program standpoint ∧
          ∀ binding ∈ bound, isReservedName binding.name = false := by
  induction arguments generalizing parameters with
  | nil => exact .pure_of fun _ stands => ⟨stands, List.forall_mem_nil _⟩
  | cons argument arguments ih =>
      cases parameters with
      | nil => exact .pure_of fun _ stands => ⟨stands, List.forall_mem_nil _⟩
      | cons parameter parameters =>
          obtain ⟨firstFree, othersFree⟩ := List.forall_mem_cons.mp free
          refine .bind (.read _) fun _ => .bind (evaluated argument) fun _ =>
            .bind (ih othersFree) fun bound => .pure_of fun _ ⟨stands, boundFree⟩ => ?_
          exact ⟨stands, List.forall_mem_cons.mpr ⟨firstFree, boundFree⟩⟩

/-- A routine evaluates assignments of literals only, which may stand elsewhere. -/
theorem runRoutine_agree
    (assigned : ∀ span name value, Agree program standpoint
      (evaluate (.assign span (.identifier span name) (.literal span value)))
      (evaluate' (.assign span (.identifier span name) (.literal span value))))
    (routine : Routine) :
    Agree program standpoint (runRoutine evaluate routine) (runRoutine evaluate' routine) := by
  have text (operation : String → Option String) :
      Agree program standpoint (textRoutine operation) (textRoutine operation) :=
    .bind (.valueOf "t") fun _ => .pure _
  have split (operation : String → String × Option String) (left right : String) :
      Agree program standpoint (splitRoutine evaluate operation left right)
        (splitRoutine evaluate' operation left right) :=
    .bind (.valueOf "source") fun _ => .bind (.read _) fun _ =>
      .bind (assigned _ _ _) fun _ => assigned _ _ _
  cases routine with
  | print => exact .bind (.valueOf "t") fun _ => .bind (emit_agree _) fun _ => .pure _
  | quit => exact .halt .quit _
  | first => exact text _
  | last => exact text _
  | body => exact text _
  | tail => exact text _
  | split => exact split _ _ _
  | backSplit => exact split _ _ _
  | fizzBuzz =>
      refine .bind (.valueOf "n") fun value => ?_
      cases value.asNumber? with
      | none => exact .pure _
      | some number => exact .bind (emit_agree _) fun _ => .pure _

include executed in
theorem runBody_agree (signature : FunctionSignature) {body : Statement}
    (isPart : program.IsPart body) :
    Agree program standpoint (runBody execute signature body)
      (runBody execute' signature body) := by
  have fallsThrough : Agree program standpoint (fallThrough signature) (fallThrough signature) := by
    unfold fallThrough
    split
    · exact .read _
    · exact .bind (.read _) fun _ => .bind (emit_agree _) fun _ => .read _
  refine .bind (executed body isPart) fun flow => ?_
  cases flow with
  | giveBack value => exact .pure _
  | normal => exact fallsThrough
  | skip => exact fallsThrough
  | stop => exact fallsThrough

/-- The same is done in a frame of its own. -/
theorem inFrame_agree {α β : Type} {running running' : Tracing α} {region : Region}
    (runs : Agree program (standpoint.calling region) running running') {frame : Frame}
    (bare : ∀ scope ∈ frame.scopes, scope.entries = []) (fits : frame.Fits [region])
    (span : Span) (result : α → β) :
    Agree program standpoint (do
      update (·.mark span)
      update (·.pushFrame frame)
      let value ← running
      update (·.popFrame)
      return result value) (do
      update (·.mark span)
      update (·.pushFrame frame)
      let value ← running'
      update (·.popFrame)
      return result value) :=
  .bind (.update fun _ stands => stands.mark span) fun _ =>
    .bind (.update fun _ stands => stands.pushFrame bare fits) fun _ =>
      .bind runs fun _ => .bind (.update fun _ stands => stands.popFrame) fun _ => .pure _

/-! ### Statements -/

include evaluated in
theorem declareVariable_agree (declarator : Declarator) (initial : Option Expression) :
    Agree program standpoint (declareVariable evaluate declarator initial)
      (declareVariable evaluate' declarator initial) := by
  have adds {binding : Variable} (free : isReservedName binding.name = false) :
      Agree program standpoint (addVariable binding) (addVariable binding) := by
    refine .bind (.read_eq _) fun declared => ?_
    cases declared with
    | ok frame => exact .update fun _ ⟨stands, declares⟩ => stands.declareVariable free declares
    | error cause => exact .fail _
  unfold declareVariable
  split
  · exact .fail _
  · next unreserved =>
    have free : isReservedName declarator.name = false := Bool.eq_false_iff.mpr unreserved
    cases initial with
    | none => exact adds free
    | some initial => exact .bind (usedValue_agree evaluated initial) fun _ => adds free

theorem declareCallable_agree {declared : Callable}
    (isPart : program.IsPart declared.declaration) :
    Agree program standpoint (declareCallable declared) (declareCallable declared) := by
  refine .bind (.read _) fun _ => .bind (.ofExcept _) fun _ => .bind (.read_eq _) fun result =>
    .bind (.update fun machine ⟨⟨stands, _⟩, isResult⟩ => ?_) fun _ =>
      (Coincide.ofExcept _).mono fun _ _ holds => holds.1
  cases isResult
  exact stands.declareCallable isPart

include executed in
theorem block_agree {statements : List Statement}
    (parts : ∀ statement ∈ statements, program.IsPart statement) :
    Agree program standpoint (block execute statements) (block execute' statements) := by
  induction statements with
  | nil => exact .pure _
  | cons statement statements ih =>
      obtain ⟨first, others⟩ := List.forall_mem_cons.mp parts
      refine .bind (executed statement first) fun flow => ?_
      cases flow with
      | normal =>
          refine .bind (.read _) fun ended => ?_
          split
          · exact .pure _
          · exact ih others
      | skip => exact .pure _
      | stop => exact .pure _
      | giveBack value => exact .pure _

include evaluated executed in
theorem conditional_agree (test : Expression) {positive : Statement} {negative : Option Statement}
    (positivePart : program.IsPart positive)
    (negativePart : ∀ statement ∈ negative, program.IsPart statement) :
    Agree program standpoint (conditional evaluate execute test positive negative)
      (conditional evaluate' execute' test positive negative) := by
  refine .bind (condition_agree evaluated test) fun holds => ?_
  split
  · exact .bind (.update fun _ stands => stands.setFlags _) fun _ => executed positive positivePart
  · refine .bind (.update fun _ stands => stands.unsetFlags _) fun _ => ?_
    cases negative with
    | none => exact .pure _
    | some negative => exact executed negative (negativePart negative rfl)

include evaluated executed in
theorem loopStep_agree {again again' : Expression → Statement → Tracing Flow} (test : Expression)
    {body : Statement} (isPart : program.IsPart body)
    (repeated : Agree program standpoint (again test body) (again' test body)) :
    Agree program standpoint (loopStep evaluate execute again test body)
      (loopStep evaluate' execute' again' test body) := by
  have leaves (flow : Flow) : Agree program standpoint (do
      update (·.unsetFlags .onlyLoop)
      return flow) (do
      update (·.unsetFlags .onlyLoop)
      return flow) :=
    .bind (.update fun _ stands => stands.unsetFlags _) fun _ => .pure flow
  refine .bind (condition_agree evaluated test) fun holds => ?_
  split
  · refine .bind (.update fun _ stands => stands.setFlags _) fun _ =>
      .bind (executed body isPart) fun flow => ?_
    cases flow with
    | normal => exact repeated
    | skip => exact repeated
    | stop => exact leaves _
    | giveBack value => exact leaves _
  · exact leaves _

theorem loopJump_agree (flow : Flow) (illegal : RuntimeCause) :
    Agree program standpoint (loopJump flow illegal) (loopJump flow illegal) := by
  refine .bind (.read _) fun frame => ?_
  split
  · exact .fail _
  · split
    · exact .pure _
    · exact .fail _

include evaluated in
theorem giveBack_agree (value : Option Expression) :
    Agree program standpoint (giveBack evaluate value) (giveBack evaluate' value) := by
  refine .bind (.read _) fun frame => ?_
  split
  · exact .fail _
  · split
    · exact .fail _
    · split
      · exact .fail _
      · exact .pure _
      · exact .fail _
      · exact .bind (usedValue_agree evaluated _) fun _ => .pure _

end Nodes

/-! ## Nodes that change the standpoint -/

section Standpoints

variable {program : Statement} {evaluate : Standpoint → Expression → Tracing Value}
  {evaluate' : Expression → Tracing Value} {execute : Standpoint → Statement → Tracing Flow}
  {execute' : Statement → Tracing Flow}
  (evaluated : ∀ standpoint expression,
    Agree program standpoint (evaluate standpoint expression) (evaluate' expression))
  (executed : ∀ standpoint statement, program.IsPart statement →
    Agree program standpoint (execute standpoint statement) (execute' statement))
  (everywhere : ∀ standpoint other span name value,
    evaluate standpoint (.assign span (.identifier span name) (.literal span value)) =
      evaluate other (.assign span (.identifier span name) (.literal span value)))
  (standpoint : Standpoint)

/-- The same is done in a scope of its own. -/
theorem inScope_agree {α : Type} {running running' : Tracing α} {region : Region} {scope : Scope}
    {standpoint : Standpoint} (runs : Agree program (standpoint.inside region) running running')
    (bare : scope.entries = []) (holds : region.Holds scope.bindings) :
    Agree program standpoint (do
      update (·.pushScope scope)
      andFinally running (·.popScope)) (do
      update (·.pushScope scope)
      andFinally running' (·.popScope)) :=
  .bind (.update fun _ stands => stands.pushScope bare holds) fun _ =>
    .andFinally runs fun _ stands => stands.popScope

include evaluated in
theorem pipeAt_agree (first : Expression) (success failure : Option Expression) :
    Agree program standpoint (pipeAt evaluate standpoint first success failure)
      (pipe evaluate' first success failure) := by
  refine .bind (usedValue_agree (evaluated standpoint) first) fun carried => ?_
  have parts := pipeParts_agree (evaluated (standpoint.inside .parts)) carried success failure
  exact inScope_agree parts rfl (.singleton fun _ => rfl)

include evaluated everywhere in
theorem routineAt_agree (region : Region) (routine : Routine) :
    Agree program (standpoint.calling region) (runRoutine (evaluate standpoint) routine)
      (runRoutine evaluate' routine) := by
  refine runRoutine_agree (fun span name value => ?_) routine
  rw [everywhere standpoint (standpoint.calling region)]
  exact evaluated (standpoint.calling region) _

include evaluated executed everywhere in
theorem callFunction_agree {signature : FunctionSignature} {body : Statement}
    {routine : Option Routine} (arguments : List Expression) (span : Span)
    (free : ∀ parameter ∈ signature.parameters, isReservedName parameter.name = false)
    (isPart : routine = none → program.IsPart body) :
    Agree program standpoint
      (callFunction (evaluate standpoint) (execute (standpoint.calling .block)) signature body
        routine arguments span)
      (callFunction evaluate' execute' signature body routine arguments span) := by
  refine .bind (.read _) fun expected => ?_
  split
  · exact .fail _
  · refine .bind (bindArguments_coincide (evaluated standpoint) arguments free) fun parameters => ?_
    -- the new frame fits because no argument was bound to a reserved name
    rintro machine ⟨stands, boundFree⟩
    have bare := Frame.entries_functionFrame signature span parameters
    have fits := Frame.Fits.functionFrame signature span boundFree
    cases routine with
    | none =>
        have runs := runBody_agree (executed (standpoint.calling .block)) signature (isPart rfl)
        exact inFrame_agree runs bare fits span _ machine stands
    | some routine =>
        have runs := routineAt_agree evaluated everywhere standpoint .block routine
        exact inFrame_agree runs bare fits span _ machine stands

include evaluated executed everywhere in
theorem callPattern_agree {signature : PatternSignature} {body : Statement}
    {routine : Option Routine} (argument : Expression) (span : Span)
    (free : isReservedName signature.parameter.name = false)
    (isPart : routine = none → program.IsPart body) :
    Agree program standpoint
      (callPattern (evaluate standpoint) (execute (standpoint.calling .branches)) signature body
        routine argument span)
      (callPattern evaluate' execute' signature body routine argument span) := by
  refine .bind (.read _) fun site => .bind (usedValue_agree (evaluated standpoint) argument)
    fun value => ?_
  have bare := Frame.entries_patternFrame signature span (value.cast signature.parameter.type) site
  have fits := Frame.Fits.patternFrame span (value.cast signature.parameter.type) site free
  cases routine with
  | none =>
      exact inFrame_agree (executed (standpoint.calling .branches) body (isPart rfl)) bare fits span
        fun _ => Value.nothing
  | some routine =>
      exact inFrame_agree (routineAt_agree evaluated everywhere standpoint .branches routine) bare
        fits span fun _ => Value.nothing

include evaluated executed everywhere in
theorem callAt_agree (unreserving : program.Unreserving) (name : String)
    (arguments : List Expression) (span : Span) :
    Agree program standpoint (callAt evaluate execute standpoint name arguments span)
      (call evaluate' execute' name arguments span) := by
  refine .bind (.read_eq _) fun resolved => .bind (.ofExcept _) fun found => ?_
  rintro machine ⟨⟨stands, resolves⟩, isFound⟩
  cases found with
  | none => exact Coincide.fail _ machine stands
  | some entry =>
      have isFrom := stands.hosts.resolve (resolves.trans isFound)
      have free := isFrom.parameters_free unreserving
      have isPart := isFrom.body_isPart
      obtain ⟨callable, routine⟩ := entry
      cases callable with
      | function signature body =>
          exact callFunction_agree evaluated executed everywhere standpoint arguments span free
            isPart machine stands
      | pattern signature body =>
          cases arguments with
          | nil => exact Coincide.pure _ machine stands
          | cons argument others =>
              exact callPattern_agree evaluated executed everywhere standpoint argument span
                (free _ List.mem_cons_self) isPart machine stands

include evaluated executed everywhere in
theorem expressionNodeAt_agree (unreserving : program.Unreserving) (expression : Expression) :
    Agree program standpoint (expressionNodeAt evaluate execute standpoint expression)
      (expressionNode evaluate' execute' expression) := by
  have used := usedValue_agree (evaluated standpoint)
  cases expression with
  | literal span value => exact .pure _
  | identifier span name => exact readAt_agree name
  | unary span operator operand => exact .bind (used operand) fun _ => .pure _
  | binary span operator left right =>
      exact .bind (used left) fun _ => .bind (used right) fun _ =>
        (Coincide.ofExcept _).mono fun _ _ holds => holds.1
  | ternary span test yes no =>
      refine .bind (condition_agree (evaluated standpoint) test) fun holds => ?_
      split
      · exact evaluated standpoint yes
      · cases no with
        | none => exact .pure _
        | some no => exact evaluated standpoint no
  | pipe span first success failure => exact pipeAt_agree evaluated standpoint first success failure
  | noneTest span operand => exact .bind (used operand) fun _ => .pure _
  | assign span target value => exact assign_agree (evaluated standpoint) target value
  | call span name arguments =>
      exact callAt_agree evaluated executed everywhere standpoint unreserving name arguments span

include evaluated executed everywhere in
theorem expressionStepAt_agree (unreserving : program.Unreserving) (maxDepth : Nat)
    (expression : Expression) :
    Agree program standpoint (expressionStepAt evaluate execute standpoint maxDepth expression)
      (expressionStep evaluate' execute' maxDepth expression) :=
  .bind (enter_agree _ _) fun _ => .bind (.update fun _ stands => stands.mark _) fun _ =>
    .bind (expressionNodeAt_agree evaluated executed everywhere standpoint unreserving expression)
      fun _ => .bind leave_agree fun _ =>
        .bind (.update fun _ stands => stands.noted _ _ _) fun _ => .pure _

include evaluated executed in
theorem statementNodeAt_agree {rounds : Standpoint → Expression → Statement → Tracing Flow}
    {rounds' : Expression → Statement → Tracing Flow}
    (repeated : ∀ test body, program.IsPart body →
      Agree program standpoint (rounds standpoint test body) (rounds' test body))
    {statement : Statement} (isPart : program.IsPart statement) :
    Agree program standpoint (statementNodeAt evaluate execute standpoint rounds statement)
      (statementNode evaluate' execute' rounds' statement) := by
  have part (inner : Statement) (member : inner ∈ statement.parts) : program.IsPart inner :=
    .part isPart member
  cases statement with
  | expression content => exact .bind (evaluated standpoint content) fun _ => .pure _
  | «variable» declarator initial =>
      exact .bind (declareVariable_agree (evaluated standpoint) declarator initial) fun _ => .pure _
  | function signature body =>
      have declares := @declareCallable_agree program standpoint (.function signature body) isPart
      exact .bind declares fun _ => .pure _
  | pattern signature body =>
      have declares := @declareCallable_agree program standpoint (.pattern signature body) isPart
      exact .bind declares fun _ => .pure _
  | compound span children =>
      exact inScope_agree (block_agree (executed (standpoint.inside .block)) part) rfl .nil
  | conditional span test positive negative =>
      refine conditional_agree (evaluated standpoint) (executed standpoint) test
        (part positive List.mem_cons_self) fun negative found => ?_
      exact part negative (List.mem_cons_of_mem _ (Option.mem_toList.mpr found))
  | loop span test body => exact repeated test body (part body List.mem_cons_self)
  | skip span => exact loopJump_agree _ _
  | stop span => exact loopJump_agree _ _
  | giveBack span value => exact giveBack_agree (evaluated standpoint) value
  | matching span subject body =>
      refine .bind (usedValue_agree (evaluated standpoint) subject) fun value => ?_
      have branches := executed (standpoint.inside .branches) body (part body List.mem_cons_self)
      exact inScope_agree branches rfl (.singleton fun _ => rfl)
  | empty span => exact .pure _

include evaluated executed in
theorem statementStepAt_agree {rounds : Standpoint → Expression → Statement → Tracing Flow}
    {rounds' : Expression → Statement → Tracing Flow}
    (repeated : ∀ test body, program.IsPart body →
      Agree program standpoint (rounds standpoint test body) (rounds' test body))
    (maxDepth : Nat) {statement : Statement} (isPart : program.IsPart statement) :
    Agree program standpoint (statementStepAt evaluate execute standpoint rounds maxDepth statement)
      (statementStep evaluate' execute' rounds' maxDepth statement) :=
  .bind (enter_agree _ _) fun _ => .bind (.update fun _ stands => stands.mark _) fun _ =>
    .bind (statementNodeAt_agree evaluated executed standpoint repeated isPart) fun _ =>
      .bind leave_agree fun _ => .pure _

end Standpoints

/-! ## Whole evaluations -/

/-- Evaluation from a standpoint is evaluation on a machine that fits it. -/
theorem evaluationAt_agree {program : Statement} (unreserving : program.Unreserving)
    (maxDepth fuel : Nat) (standpoint : Standpoint) :
    (∀ expression, Agree program standpoint (evaluateAt maxDepth fuel standpoint expression)
      (evaluate maxDepth fuel expression)) ∧
    (∀ statement, program.IsPart statement →
      Agree program standpoint (executeAt maxDepth fuel standpoint statement)
        (execute maxDepth fuel statement)) ∧
    (∀ test body, program.IsPart body →
      Agree program standpoint (roundsAt maxDepth fuel standpoint test body)
        (executeRounds maxDepth fuel test body)) := by
  induction fuel generalizing standpoint with
  | zero => exact ⟨fun _ => .exhaust, fun _ _ => .exhaust, fun _ _ _ => .exhaust⟩
  | succ fuel ih =>
      have evaluated := fun standpoint => (ih standpoint).1
      have executed := fun standpoint => (ih standpoint).2.1
      have repeated := (ih standpoint).2.2
      refine ⟨fun expression => ?_, fun statement isPart => ?_, fun test body isPart => ?_⟩
      · exact expressionStepAt_agree evaluated executed (evaluateAt_assign_literal maxDepth fuel)
          standpoint unreserving maxDepth expression
      · exact statementStepAt_agree evaluated executed standpoint repeated maxDepth isPart
      · exact loopStep_agree (evaluated standpoint) (executed standpoint) test isPart
          (repeated test body isPart)

end Tracing

/-! ## Programs -/

/-- What reading a reserved name comes to: the value of the own body, or else that of the
program, or else a failure. -/
structure Standpoint.Decides (standpoint : Standpoint) (name : String) (machine : Machine)
    (reading : Outcome Value) : Prop where
  here : standpoint.bindsHere name = true →
    ∃ after, reading = .finished (machine.current.held name) after
  inProgram : standpoint.bindsHere name = false → standpoint.bindsInProgram name = true →
    ∃ after, reading = .finished (machine.stack.globalFrame.held name) after
  nowhere : standpoint.bindsHere name = false → standpoint.bindsInProgram name = false →
    ∃ after, reading = .halted (.failed (undefinedName name)) after

theorem evaluateAt_reserved {maxDepth : Nat} (fuel : Nat) (standpoint : Standpoint) (span : Span)
    {name : String} {machine : Machine} (reserved : isReservedName name = true)
    (below : machine.depth + 1 < maxDepth) :
    standpoint.Decides name machine
      ((evaluateAt maxDepth (fuel + 1) standpoint (.identifier span name) : Action Value)
        machine) := by
  have reading : (evaluateAt maxDepth (fuel + 1) standpoint (.identifier span name) :
      Action Value) machine = (do
        update (·.mark span)
        let value ← readAt standpoint name
        leave
        update ({ · with lastValue := value })
        return value : Action Value) { machine with depth := machine.depth + 1 } := by
    rw [evaluateAt, expressionStepAt, Expression.span, Action.bind_enter _ below]
    rfl
  -- no scope changes when the place is marked
  have sameProgram : ({ machine with depth := machine.depth + 1 }.mark
      span).stack.globalFrame.held name = machine.stack.globalFrame.held name := by
    obtain ⟨⟨current, callers⟩, depth, lastValue, emitted⟩ := machine
    cases callers with
    | nil => rfl
    | cons caller callers => rfl
  rw [reading]
  unfold readAt
  rw [if_pos reserved]
  constructor
  · intro bound
    rw [if_pos bound]
    exact ⟨_, rfl⟩
  · intro unbound bound
    rw [if_neg (Bool.eq_false_iff.mp unbound), if_pos bound, ← sameProgram]
    exact ⟨_, rfl⟩
  · intro unbound unboundThere
    rw [if_neg (Bool.eq_false_iff.mp unbound), if_neg (Bool.eq_false_iff.mp unboundThere)]
    exact ⟨_, rfl⟩

/-- If no parameter has a reserved name, a program runs as it does from its standpoints, where
reading a reserved name fails if and only if neither a region around it in the same body nor
one around the place that the program itself has reached binds the name.  The places of other
callers do not matter. -/
theorem reserved_names_are_decided_by_standpoints {session : Session} (batch : session.Batch)
    {program : Statement} (unreserving : program.Unreserving) (fuel : Nat) :
    (executeAt session.limits.maxDepth fuel .start program : Tracing Flow) session.machine =
      (execute session.limits.maxDepth fuel program : Tracing Flow) session.machine ∧
    ∀ (more : Nat) (standpoint : Standpoint) (span : Span) (name : String) (machine : Machine),
      isReservedName name = true → machine.depth + 1 < session.limits.maxDepth →
        standpoint.Decides name machine
          ((evaluateAt session.limits.maxDepth (more + 1) standpoint (.identifier span name) :
            Action Value) machine) := by
  constructor
  · have agree := (Tracing.evaluationAt_agree unreserving session.limits.maxDepth fuel .start).2.1
      program .whole
    exact (agree session.machine (.start batch.stack_eq)).1
  · intro more standpoint span name machine reserved below
    exact evaluateAt_reserved more standpoint span reserved below

/-- A function reads the value that flows through a pipe of the program in which it is called,
and the program prints it.  Called in a pipe of another function it fails. -/
theorem function_reads_the_pipe_of_the_program :
    let place : Span := .firstCharacter
    let body : Statement := .giveBack place (some (.identifier place pipeName))
    let function : Statement := .function ⟨place, "F", false, [], .text⟩ body
    let printing : Statement := .expression (.call place "Print"
      [.pipe place (.literal place (.text "5")) (some (.call place "F" [])) none])
    let program : Statement := .compound place [function, printing]
    let session := Session.start .standard
    let run := (execute session.limits.maxDepth 20 program : Tracing Flow) session.machine
    let inPipe := ((Standpoint.start.inside .block).inside .parts).calling .block
    let inPipeOfFunction :=
      (((Standpoint.start.inside .block).calling .block).inside .parts).calling .block
    let reading (standpoint : Standpoint) := (evaluateAt session.limits.maxDepth 1 standpoint
      (.identifier place pipeName) : Action Value) session.machine
    program.Unreserving ∧
    (executeAt session.limits.maxDepth 20 .start program : Tracing Flow) session.machine = run ∧
    (∃ flow after, run.outcome = .finished flow after ∧ after.emitted = #[.line "5"]) ∧
    (∃ value after, reading inPipe = .finished value after) ∧
    ∃ after, reading inPipeOfFunction = .halted (.failed .pipeOutsidePipeline) after := by
  intro place body function printing program session run inPipe inPipeOfFunction reading
  have parts (statement : Statement) (isPart : program.IsPart statement) :
      statement = program ∨ statement = function ∨ statement = printing ∨ statement = body := by
    induction isPart with
    | whole => exact .inl rfl
    | part _ member ih =>
        rcases ih with rfl | rfl | rfl | rfl
        · rcases List.mem_pair.mp member with rfl | rfl
          · exact .inr (.inl rfl)
          · exact .inr (.inr (.inl rfl))
        · exact .inr (.inr (.inr (List.mem_singleton.mp member)))
        · cases member
        · cases member
  have unreserving : program.Unreserving := by
    intro callable isPart parameter member
    have isOne := parts callable.declaration isPart
    cases callable with
    | function signature inner =>
        obtain ⟨rfl, -⟩ : signature = ⟨place, "F", false, [], .text⟩ ∧ inner = body := by
          simpa [Callable.declaration, program, function, printing, body] using isOne
        cases member
    | pattern signature inner =>
        simp [Callable.declaration, program, function, printing, body] at isOne
  obtain ⟨same, reads⟩ := reserved_names_are_decided_by_standpoints
    (.start .standard : session.Batch) unreserving 20
  have prints : ∃ flow after, run.outcome = .finished flow after ∧
      after.emitted = #[.line "5"] := by
    have evaluated : run.outcome.finishesWith
        (fun _ after => decide (after.emitted = #[.line "5"])) = true := by
      decide +kernel
    obtain ⟨flow, after, finishes, emits⟩ := Outcome.exists_of_finishesWith evaluated
    exact ⟨flow, after, finishes, of_decide_eq_true emits⟩
  have below : session.machine.depth + 1 < session.limits.maxDepth := by decide
  have inside := reads 0 inPipe place pipeName session.machine rfl below
  have outside := reads 0 inPipeOfFunction place pipeName session.machine rfl below
  refine ⟨unreserving, same, prints, ?_, outside.nowhere rfl rfl⟩
  obtain ⟨after, finishes⟩ := inside.inProgram rfl rfl
  exact ⟨_, after, finishes⟩

end Plainspoken
