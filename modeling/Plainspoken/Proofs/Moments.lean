import Plainspoken.Proofs.Maintenance
import Plainspoken.Proofs.Watching

/-!
# What holds at every moment

A property of moments is about the machine and about the nodes in progress.  Most of
what a node does binds no reserved name.  The exceptions are a pipe, a match and a call:
when one of them opens its scope or its frame, it is the innermost node in progress, and
as many scopes are open as there were when it began.  A call has then marked its place in
the frame below.  As many scopes are open again when a node has finished.

A property that agrees with all this, and with the beginning and the end of a node,
holds at every moment of an evaluation.
-/

namespace Plainspoken

open List (Forall₂)
open Stepping Evaluation

/-! ## The shape of a machine -/

/-- How many scopes are open in each frame, the innermost frame first. -/
def Machine.shape (machine : Machine) : List Nat :=
  machine.stack.frames.map (·.scopes.length)

/-- No statement leaves a scope or a frame of its own open when it finishes. -/
theorem Machine.Extended.shape_eq {before after : Machine} (extended : before.Extended after) :
    after.shape = before.shape := by
  have sameCurrent : after.current.scopes.length = before.current.scopes.length := by
    have scopes := extended.current.scopes
    generalize before.current.scopes = inner at scopes
    generalize after.current.scopes = inner' at scopes
    cases scopes with
    | none => rfl
    | innermost _ completed => rw [List.length_cons, List.length_cons, completed.length_eq]
  have sameCallers : after.stack.callers.map (·.scopes.length) =
      before.stack.callers.map (·.scopes.length) := by
    have callers := extended.callers
    generalize before.stack.callers = frames at callers
    generalize after.stack.callers = frames' at callers
    induction callers with
    | nil => rfl
    | cons alike _ ih => rw [List.map_cons, List.map_cons, alike.scopes.length_eq, ih]
  change _ :: _ = _ :: _
  rw [sameCallers]
  congr 1

/-! ## Properties that agree with every step -/

/-- The changes of a machine that neither bind a reserved name nor declare a callable. -/
inductive Machine.Quiet : Machine → Machine → Prop where
  | noted (machine : Machine) (depth : Nat) (lastValue : Value) (emitted : Transcript) :
      Quiet machine ⟨machine.stack, depth, lastValue, emitted⟩
  | marked (machine : Machine) (span : Span) : Quiet machine (machine.mark span)
  | flagsSet (machine : Machine) (flags : Flags) : Quiet machine (machine.setFlags flags)
  | flagsUnset (machine : Machine) (flags : Flags) : Quiet machine (machine.unsetFlags flags)
  | blockOpened (machine : Machine) : Quiet machine (machine.pushScope .empty)
  | scopeClosed (machine : Machine) : Quiet machine machine.popScope
  | frameClosed (machine : Machine) : Quiet machine machine.popFrame
  | stored {machine : Machine} {site : Site} {binding : Variable}
      (assigns : machine.Assigns site binding) (value : Value) :
      Quiet machine (machine.store site (value.cast binding.declarator.type))
  | variableDeclared (machine : Machine) {binding : Variable} {frame : Frame}
      (fresh : binding.Declared) (declares : machine.current.declareVariable binding = .ok frame) :
      Quiet machine (machine.modifyCurrent fun _ => frame)

def Callable.declaration : Callable → Statement
  | .function signature body => .function signature body
  | .pattern signature body => .pattern signature body

/-- A property that agrees with every step of an evaluation, if all statements are among
those covered. -/
structure Moment.Invariant (Covers : Statement → Prop) (property : Moment → Prop) : Prop where
  parts {statement part : Statement} (covered : Covers statement)
    (isPart : part ∈ statement.parts) : Covers part
  begun {path : List Activity} {machine : Machine} (node : Node)
    (holds : property ⟨path, machine⟩) : property ⟨⟨node, machine⟩ :: path, machine⟩
  ended {path : List Activity} {activity : Activity} {after : Machine}
    (holds : property ⟨activity :: path, after⟩) (same : after.shape = activity.start.shape) :
    property ⟨path, after⟩
  quiet {path : List Activity} {machine after : Machine} (change : machine.Quiet after)
    (holds : property ⟨path, machine⟩) : property ⟨path, after⟩
  callableDeclared {path : List Activity} {machine : Machine} {declared : Callable}
    (covered : Covers declared.declaration) (holds : property ⟨path, machine⟩) :
    property ⟨path, machine.modifyCurrent fun _ => (machine.current.declareCallable declared).2⟩
  /-- A call that runs a body runs one that is covered. -/
  bodies {path : List Activity} {machine : Machine} {name : String} {arity : Nat}
    {callable : Callable} (holds : property ⟨path, machine⟩)
    (resolves : resolve machine name arity = .ok (some ⟨callable, none⟩)) : Covers callable.body
  pipeOpened {path : List Activity} {activity : Activity} {machine : Machine} {span : Span}
    {first : Expression} {success failure : Option Expression}
    (isPipe : activity.node = .expression (.pipe span first success failure)) (value : Value)
    (same : machine.shape = activity.start.shape) (holds : property ⟨activity :: path, machine⟩) :
    property ⟨activity :: path,
      machine.pushScope (Scope.empty.insertVariable (pipeVariable first.span value))⟩
  subjectOpened {path : List Activity} {activity : Activity} {machine : Machine} {span : Span}
    {subject : Expression} {body : Statement}
    (isMatch : activity.node = .statement (.matching span subject body)) (value : Value)
    (same : machine.shape = activity.start.shape) (holds : property ⟨activity :: path, machine⟩) :
    property ⟨activity :: path, machine.pushScope (subjectScope span value)⟩
  functionOpened {path : List Activity} {activity : Activity} {machine : Machine} {span : Span}
    {name : String} {arguments : List Expression} {signature : FunctionSignature}
    {body : Statement} {routine : Option Routine} {parameters : List Variable}
    (isCall : activity.node = .expression (.call span name arguments))
    (resolves : resolve activity.start name arguments.length =
      .ok (some ⟨.function signature body, routine⟩))
    (declared : ∀ binding ∈ parameters, binding.declarator ∈ signature.parameters)
    (bound : ∀ binding ∈ parameters, binding.Bound)
    (marked : machine.current.span = span) (same : machine.shape = activity.start.shape)
    (holds : property ⟨activity :: path, machine⟩) :
    property ⟨activity :: path, machine.pushFrame (functionFrame signature span parameters)⟩
  patternOpened {path : List Activity} {activity : Activity} {machine : Machine} {span : Span}
    {name : String} {arguments : List Expression} {signature : PatternSignature}
    {body : Statement} {routine : Option Routine}
    (isCall : activity.node = .expression (.call span name arguments))
    (resolves : resolve activity.start name arguments.length =
      .ok (some ⟨.pattern signature body, routine⟩))
    (value : Value) (site : Option Site) (marked : machine.current.span = span)
    (same : machine.shape = activity.start.shape) (holds : property ⟨activity :: path, machine⟩) :
    property ⟨activity :: path, machine.pushFrame
      (patternFrame signature span (value.cast signature.parameter.type) site)⟩

/-- Arguments become variables of the parameters. -/
theorem bindArguments_declarators (evaluate : Expression → Action Value)
    (arguments : List Expression) (parameters : List Declarator) (machine : Machine) :
    (bindArguments evaluate arguments parameters).Ensures machine
      fun bound _ => ∀ binding ∈ bound, binding.declarator ∈ parameters := by
  induction arguments generalizing parameters machine with
  | nil =>
      rw [bindArguments, Action.ensures_pure]
      · simp
      · simp
  | cons argument arguments ih =>
      cases parameters with
      | nil =>
          rw [bindArguments, Action.ensures_pure]
          · simp
          · simp
      | cons parameter parameters =>
          simp only [bindArguments, Action.ensures_bind, Action.ensures_read,
            Action.ensures_pure, List.forall_mem_cons]
          intro value between _
          refine (ih parameters between).mono fun rest after bound => ⟨List.mem_cons_self, ?_⟩
          exact fun binding member => List.mem_cons_of_mem _ (bound binding member)

/-! ## Steps -/

namespace Watching

variable {α β : Type} {property : Moment → Prop}

/-- Where the property holds at first, it holds at every moment passed. -/
def Preserves (property : Moment → Prop) (watched : Watching α) : Prop :=
  ∀ path machine, property ⟨path, machine⟩ → watched.Keeps property path machine

theorem Keeps.update {path : List Activity} {machine : Machine} {change : Machine → Machine}
    (holds : property ⟨path, change machine⟩) :
    (Stepping.update change : Watching Unit).Keeps property path machine where
  passed := List.forall_mem_singleton.mpr holds
  finished _ _ ends := by
    cases ends
    exact holds
  halted _ _ ends := by cases ends

namespace Preserves

theorem pure (result : α) : (Pure.pure result : Watching α).Preserves property := by
  intro path machine holds
  refine ⟨List.forall_mem_nil _, ?_, ?_⟩
  · intro _ _ ends
    cases ends
    exact holds
  · intro _ _ ends
    cases ends

theorem read (view : Machine → α) : (Stepping.read view : Watching α).Preserves property := by
  intro path machine holds
  obtain ⟨passed, finished, halted⟩ := pure (view machine) path machine holds
  exact ⟨passed, finished, halted⟩

theorem halt (reason : Halt) : (Stepping.halt reason : Watching α).Preserves property := by
  intro path machine holds
  refine ⟨List.forall_mem_nil _, ?_, ?_⟩
  · intro _ _ ends
    cases ends
  · intro _ _ ends
    cases ends
    exact holds

theorem fail (cause : RuntimeCause) : (Stepping.fail cause : Watching α).Preserves property :=
  halt (.failed cause)

theorem exhaust : (Stepping.exhaust : Watching α).Preserves property := by
  intro path machine _
  refine ⟨List.forall_mem_nil _, ?_, ?_⟩ <;> intro _ _ ends <;> cases ends

theorem bind {first : Watching α} {second : α → Watching β}
    (firstPreserves : first.Preserves property)
    (secondPreserves : ∀ result, (second result).Preserves property) :
    (first >>= second).Preserves property :=
  fun path machine holds => (firstPreserves path machine holds).bind
    fun result between _ middle => secondPreserves result path between middle

theorem ofExcept (computed : Except RuntimeCause α) :
    (Stepping.ofExcept computed : Watching α).Preserves property := by
  cases computed with
  | ok result => exact pure result
  | error cause => exact fail cause

theorem ofOption (cause : RuntimeCause) (found : Option α) :
    (Stepping.ofOption cause found : Watching α).Preserves property := by
  cases found with
  | some result => exact pure result
  | none => exact fail cause

theorem valueOf (name : String) : (Stepping.valueOf name : Watching Value).Preserves property :=
  bind (read _) fun computed => ofExcept computed

end Preserves

private theorem ok_of_finished_ofExcept {computed : Except RuntimeCause α} {path : List Activity}
    {machine after : Machine} {result : α}
    (finishes : (ofExcept computed : Watching α).action path machine = .finished result after) :
    computed = .ok result ∧ machine = after := by
  cases computed with
  | ok value =>
      cases finishes
      exact ⟨rfl, rfl⟩
  | error cause => cases finishes

theorem action_enter (maxDepth : Nat) (span : Span) (path : List Activity) :
    (enter maxDepth span : Watching Unit).action path = enter maxDepth span := by
  have traces : (enter maxDepth span : Watching Unit).traced path = enter maxDepth span :=
    ((forgetting path).nests maxDepth).enter span
  rw [action, traces]
  exact (Tracing.forgetting.nests maxDepth).enter span

end Watching

namespace Moment.Invariant

variable {Covers : Statement → Prop} {property : Moment → Prop}
  (invariant : Moment.Invariant Covers property)

include invariant

theorem update {change : Machine → Machine}
    (changes : ∀ machine : Machine, machine.Quiet (change machine)) :
    (Stepping.update change : Watching Unit).Preserves property :=
  fun _ machine holds => .update (invariant.quiet (changes machine) holds)

theorem andFinally {α : Type} {watched : Watching α} {change : Machine → Machine}
    (preserves : watched.Preserves property)
    (changes : ∀ machine : Machine, machine.Quiet (change machine)) :
    (Stepping.andFinally watched change).Preserves property :=
  fun path machine holds => (preserves path machine holds).andFinally
    fun _ after later => invariant.quiet (changes after) later

theorem emit (emission : Emission) :
    (Stepping.update (·.emit emission) : Watching Unit).Preserves property :=
  invariant.update fun machine => .noted machine _ _ _

theorem enter (maxDepth : Nat) (span : Span) :
    (Stepping.enter maxDepth span : Watching Unit).Preserves property := by
  refine .bind (invariant.update fun machine => .noted machine _ _ _) fun _ =>
    .bind (.read _) fun tooDeep => ?_
  split
  · exact .fail _
  · exact .pure _

theorem leave : (Stepping.leave : Watching Unit).Preserves property :=
  invariant.update fun machine => .noted machine _ _ _

end Moment.Invariant

/-! ## Nodes -/

namespace Watching

section Nodes

variable {Covers : Statement → Prop} {property : Moment → Prop}
  (invariant : Moment.Invariant Covers property)
  {evaluate : Expression → Watching Value} {execute : Statement → Watching Flow}
  (evaluated : ∀ expression, (evaluate expression).Preserves property)
  (executed : ∀ statement, Covers statement → (execute statement).Preserves property)
  (alike : ∀ expression path, ((evaluate expression).action path).Within Machine.Alike)
  {path : List Activity} {activity : Activity} {machine : Machine}

include invariant

theorem storeAt_keeps {site : Site} {binding : Variable} (assigns : machine.Assigns site binding)
    (value : Value) (holds : property ⟨path, machine⟩) :
    (storeAt site (value.cast binding.declarator.type) : Watching Unit).Keeps property path
      machine := by
  refine (Preserves.read _ path machine holds).bind fun lives _ reads _ => ?_
  cases reads
  have isThere : (machine.stack.binding? site).isSome = true := by
    rw [assigns.found, Option.isSome_some]
  rw [if_pos isThere]
  exact .update (invariant.quiet (.stored assigns value) holds)

/-! ### Expressions -/

include evaluated in
theorem usedValue_preserves (expression : Expression) :
    (usedValue evaluate expression).Preserves property := by
  refine .bind (.read _) fun expected =>
    .bind (invariant.update fun machine => .flagsSet machine _) fun _ => ?_
  cases expected with
  | true =>
      exact invariant.andFinally (evaluated expression) fun machine => .noted machine _ _ _
  | false =>
      exact invariant.andFinally (evaluated expression) fun machine => .flagsUnset machine _

include evaluated in
theorem condition_preserves (expression : Expression) :
    (condition evaluate expression).Preserves property :=
  .bind (usedValue_preserves invariant evaluated expression) fun _ => .ofOption _ _

omit invariant in
include evaluated in
theorem pipeParts_preserves (carried : Value) (success failure : Option Expression) :
    (pipeParts evaluate carried success failure).Preserves property := by
  have failurePreserves : (pipeFailure evaluate failure).Preserves property := by
    cases failure with
    | none => exact .pure _
    | some failure => exact evaluated failure
  unfold pipeParts
  split
  · exact failurePreserves
  · cases success with
    | none => exact .pure _
    | some success =>
        refine .bind (evaluated success) fun value => ?_
        split
        · exact failurePreserves
        · exact .pure _

omit invariant in
include alike in
/-- As many scopes are open after an expression as before. -/
theorem shape_of_usedValue {expression : Expression} {value : Value} {after : Machine}
    (finishes : (usedValue evaluate expression).action path machine = .finished value after) :
    after.shape = machine.shape := by
  rw [action_usedValue] at finishes
  exact (usedValue_alike (fun inner => alike inner path) expression machine value after
    finishes).extended.shape_eq

include evaluated alike in
theorem pipe_keeps {span : Span} {first : Expression} {success failure : Option Expression}
    (isPipe : activity.node = .expression (.pipe span first success failure))
    (same : machine.shape = activity.start.shape)
    (holds : property ⟨activity :: path, machine⟩) :
    (pipe evaluate first success failure).Keeps property (activity :: path) machine := by
  refine (usedValue_preserves invariant evaluated first _ machine holds).bind
    fun carried between finishes later => ?_
  have sameBetween := (shape_of_usedValue alike finishes).trans same
  have opened := invariant.pipeOpened isPipe carried sameBetween later
  refine (Keeps.update opened).bind fun _ inside updates _ => ?_
  cases updates
  -- whatever the parts leave, also where they are halted, closing a scope is quiet
  have parts := pipeParts_preserves evaluated carried success failure
  exact invariant.andFinally parts (fun machine => .scopeClosed machine) _ _ opened

include evaluated alike in
theorem assign_preserves (target value : Expression) :
    (assign evaluate target value).Preserves property := by
  unfold assign
  split
  · exact .fail _
  · split
    · exact .fail _
    · next unreserved =>
      intro path machine holds
      refine (Preserves.read _ path machine holds).bind fun found _ reads _ => ?_
      cases reads
      split
      · exact Preserves.fail _ path machine holds
      · next owner binding owned =>
        split
        · next assignable =>
          refine (usedValue_preserves invariant evaluated value path machine holds).bind
            fun result between evaluates later => ?_
          rw [action_usedValue] at evaluates
          have alikeAfter := usedValue_alike (fun inner => alike inner path) value machine result
            between evaluates
          obtain ⟨now, assigns, same⟩ := alikeAfter.assigns unreserved owned assignable
          rw [← same.declarator]
          exact (storeAt_keeps invariant assigns result later).bind fun _ after _ afterwards =>
            Preserves.pure _ path after afterwards
        · exact Preserves.fail _ path machine holds

/-! ### Calls -/

omit invariant in
include evaluated in
theorem bindArguments_preserves (arguments : List Expression) (parameters : List Declarator) :
    (bindArguments evaluate arguments parameters).Preserves property := by
  induction arguments generalizing parameters with
  | nil => exact .pure _
  | cons argument arguments ih =>
      cases parameters with
      | nil => exact .pure _
      | cons parameter parameters =>
          exact .bind (.read _) fun _ => .bind (evaluated argument) fun _ =>
            .bind (ih parameters) fun _ => .pure _

include evaluated in
theorem runRoutine_preserves (routine : Routine) :
    (runRoutine evaluate routine).Preserves property := by
  have text (operation : String → Option String) :
      (textRoutine operation : Watching Value).Preserves property :=
    .bind (.valueOf "t") fun _ => .pure _
  have split (operation : String → String × Option String) (left right : String) :
      (splitRoutine evaluate operation left right).Preserves property :=
    .bind (.valueOf "source") fun _ => .bind (.read _) fun _ =>
      .bind (evaluated _) fun _ => evaluated _
  cases routine with
  | print =>
      exact .bind (.valueOf "t") fun _ => .bind (invariant.emit _) fun _ => .pure _
  | quit => exact .halt .quit
  | first => exact text _
  | last => exact text _
  | body => exact text _
  | tail => exact text _
  | split => exact split _ _ _
  | backSplit => exact split _ _ _
  | fizzBuzz =>
      refine .bind (.valueOf "n") fun value => ?_
      cases value.asNumber? with
      | none => exact .pure _
      | some number => exact .bind (invariant.emit _) fun _ => .pure _

include executed in
theorem runBody_preserves (signature : FunctionSignature) {body : Statement}
    (covered : Covers body) : (runBody execute signature body).Preserves property := by
  have fallsThrough : (fallThrough signature : Watching Value).Preserves property := by
    unfold fallThrough
    split
    · exact .read _
    · exact .bind (.read _) fun _ => .bind (invariant.emit _) fun _ => .read _
  refine .bind (executed body covered) fun flow => ?_
  cases flow with
  | giveBack value => exact .pure _
  | normal => exact fallsThrough
  | skip => exact fallsThrough
  | stop => exact fallsThrough

/-- Something is done in a frame of its own. -/
theorem inFrame_keeps {α β : Type} {running : Watching α} (runs : running.Preserves property)
    {frame : Frame} {span : Span} (result : α → β)
    (opened : property ⟨path, machine.mark span⟩ →
      property ⟨path, (machine.mark span).pushFrame frame⟩)
    (holds : property ⟨path, machine⟩) :
    Keeps property (do
      update (·.mark span)
      update (·.pushFrame frame)
      let value ← running
      update (·.popFrame)
      return result value) path machine := by
  have marks := invariant.quiet (.marked machine span) holds
  refine (Keeps.update marks).bind fun _ _ updates _ => ?_
  cases updates
  refine (Keeps.update (opened marks)).bind fun _ _ updates _ => ?_
  cases updates
  refine (runs path _ (opened marks)).bind fun value after _ later => ?_
  exact Preserves.bind (invariant.update fun machine => .frameClosed machine)
    (fun _ => .pure _) path after later

include evaluated executed alike in
theorem callFunction_keeps {signature : FunctionSignature} {body : Statement}
    {routine : Option Routine} {name : String} {arguments : List Expression} {span : Span}
    (isCall : activity.node = .expression (.call span name arguments))
    (resolves : resolve activity.start name arguments.length =
      .ok (some ⟨.function signature body, routine⟩))
    (covered : routine = none → Covers body) (same : machine.shape = activity.start.shape)
    (holds : property ⟨activity :: path, machine⟩) :
    (callFunction evaluate execute signature body routine arguments span).Keeps property
      (activity :: path) machine := by
  refine (Preserves.read _ _ machine holds).bind fun expected between reads _ => ?_
  cases reads
  split
  · exact Preserves.fail _ _ machine holds
  · have binds := bindArguments_preserves evaluated arguments signature.parameters
    refine (binds _ machine holds).bind fun parameters between finishes later => ?_
    rw [action_bindArguments] at finishes
    have declared := bindArguments_declarators _ arguments signature.parameters machine parameters
      between finishes
    have bound := bindArguments_bound _ arguments signature.parameters machine parameters between
      finishes
    have sameBetween : between.shape = activity.start.shape :=
      (bindArguments_alike (fun inner => alike inner _) arguments signature.parameters machine
        parameters between finishes).extended.shape_eq.trans same
    cases routine with
    | none =>
        exact inFrame_keeps invariant (runBody_preserves invariant executed signature (covered rfl))
          _ (fun marks => invariant.functionOpened isCall resolves declared bound rfl sameBetween
            marks) later
    | some routine =>
        exact inFrame_keeps invariant (runRoutine_preserves invariant evaluated routine)
          _ (fun marks => invariant.functionOpened isCall resolves declared bound rfl sameBetween
            marks) later

include evaluated executed alike in
theorem callPattern_keeps {signature : PatternSignature} {body : Statement}
    {routine : Option Routine} {name : String} {argument : Expression}
    {others : List Expression} {span : Span}
    (isCall : activity.node = .expression (.call span name (argument :: others)))
    (resolves : resolve activity.start name (argument :: others).length =
      .ok (some ⟨.pattern signature body, routine⟩))
    (covered : routine = none → Covers body) (same : machine.shape = activity.start.shape)
    (holds : property ⟨activity :: path, machine⟩) :
    (callPattern evaluate execute signature body routine argument span).Keeps property
      (activity :: path) machine := by
  refine (Preserves.read _ _ machine holds).bind fun site between reads _ => ?_
  cases reads
  refine (usedValue_preserves invariant evaluated argument _ machine holds).bind
    fun value between finishes later => ?_
  have sameBetween := (shape_of_usedValue alike finishes).trans same
  cases routine with
  | none =>
      exact inFrame_keeps invariant (executed body (covered rfl)) _
        (fun marks => invariant.patternOpened isCall resolves _ _ rfl sameBetween marks) later
  | some routine =>
      exact inFrame_keeps invariant (runRoutine_preserves invariant evaluated routine) _
        (fun marks => invariant.patternOpened isCall resolves _ _ rfl sameBetween marks) later

include evaluated executed alike in
theorem call_keeps {name : String} {arguments : List Expression} {span : Span}
    (isCall : activity.node = .expression (.call span name arguments))
    (sameResolved : resolve machine name arguments.length =
      resolve activity.start name arguments.length)
    (same : machine.shape = activity.start.shape)
    (holds : property ⟨activity :: path, machine⟩) :
    (call evaluate execute name arguments span).Keeps property (activity :: path) machine := by
  refine (Preserves.read _ _ machine holds).bind fun resolved between reads _ => ?_
  cases reads
  refine (Preserves.ofExcept _ _ machine holds).bind fun found between computes _ => ?_
  obtain ⟨resolves, rfl⟩ := ok_of_finished_ofExcept computes
  cases found with
  | none => exact Preserves.fail _ _ machine holds
  | some entry =>
      obtain ⟨callable, routine⟩ := entry
      have covered (unbuilt : routine = none) : Covers callable.body :=
        invariant.bodies holds (unbuilt ▸ resolves)
      replace resolves := sameResolved.symm.trans resolves
      cases callable with
      | function signature body =>
          exact callFunction_keeps invariant evaluated executed alike isCall resolves covered same
            holds
      | pattern signature body =>
          cases arguments with
          | nil => exact Preserves.pure _ _ machine holds
          | cons argument others =>
              exact callPattern_keeps invariant evaluated executed alike isCall resolves covered
                same holds

omit invariant in
/-- What a call refers to does not depend on the level and the place that are noted. -/
theorem resolve_entered (machine : Machine) (depth : Nat) (span : Span) (name : String)
    (arity : Nat) :
    resolve ({ machine with depth := depth }.mark span) name arity =
      resolve machine name arity := by
  obtain ⟨⟨current, callers⟩, _, _, _⟩ := machine
  cases callers with
  | nil => rfl
  | cons caller callers => rfl

include evaluated executed alike in
theorem expressionNode_keeps {expression : Expression}
    (isNode : activity.node = .expression expression)
    (sameResolved : ∀ name arity, resolve machine name arity = resolve activity.start name arity)
    (same : machine.shape = activity.start.shape)
    (holds : property ⟨activity :: path, machine⟩) :
    (expressionNode evaluate execute expression).Keeps property (activity :: path) machine := by
  have used := usedValue_preserves invariant evaluated
  cases expression with
  | literal span value => exact Preserves.pure _ _ _ holds
  | identifier span name => exact Preserves.valueOf name _ _ holds
  | unary span operator operand =>
      exact Preserves.bind (used operand) (fun _ => .pure _) _ _ holds
  | binary span operator left right =>
      exact Preserves.bind (used left) (fun _ => .bind (used right) fun _ => .ofExcept _) _ _ holds
  | ternary span test yes no =>
      refine Preserves.bind (condition_preserves invariant evaluated test) (fun decided => ?_) _ _
        holds
      split
      · exact evaluated yes
      · cases no with
        | none => exact .pure _
        | some no => exact evaluated no
  | pipe span first success failure =>
      exact pipe_keeps invariant evaluated alike isNode same holds
  | noneTest span operand =>
      exact Preserves.bind (used operand) (fun _ => .pure _) _ _ holds
  | assign span target value =>
      exact assign_preserves invariant evaluated alike target value _ _ holds
  | call span name arguments =>
      exact call_keeps invariant evaluated executed alike isNode (sameResolved _ _) same holds

include evaluated executed alike in
theorem expressionStep_keeps (maxDepth : Nat) (expression : Expression)
    (holds : property ⟨⟨.expression expression, machine⟩ :: path, machine⟩) :
    (expressionStep evaluate execute maxDepth expression).Keeps property
      (⟨.expression expression, machine⟩ :: path) machine := by
  refine (invariant.enter maxDepth expression.span _ machine holds).bind
    fun _ between enters later => ?_
  rw [action_enter, Action.finished_enter] at enters
  obtain ⟨-, rfl⟩ := enters
  have marks := invariant.quiet (.marked _ expression.span) later
  refine (Keeps.update marks).bind fun _ _ updates _ => ?_
  cases updates
  have sameShape : ({ machine with depth := machine.depth + 1 }.mark expression.span).shape =
    machine.shape := rfl
  have node := @expressionNode_keeps _ _ invariant _ _ evaluated executed alike path
    ⟨.expression expression, machine⟩ _ expression rfl
    (resolve_entered machine _ expression.span) sameShape marks
  refine node.bind fun value after _ afterwards => ?_
  exact Preserves.bind invariant.leave (fun _ => .bind
    (invariant.update fun machine => .noted machine _ _ _) fun _ => .pure _) _ after afterwards

/-! ### Statements -/

include evaluated in
theorem declareVariable_preserves (declarator : Declarator) (initial : Option Expression) :
    (declareVariable evaluate declarator initial).Preserves property := by
  have adds {binding : Variable} (fresh : binding.Declared) :
      (addVariable binding : Watching Unit).Preserves property := by
    intro path machine holds
    refine (Preserves.read _ path machine holds).bind fun _ _ reads _ => ?_
    cases reads
    split
    · next frame declares =>
      exact .update (invariant.quiet (.variableDeclared machine fresh declares) holds)
    · exact Preserves.fail _ path machine holds
  unfold declareVariable
  split
  · exact .fail _
  · next unreserved =>
    have free : isReservedName declarator.name = false := by simpa using unreserved
    intro path machine holds
    cases initial with
    | none =>
        refine (Preserves.pure _ path machine holds).bind fun binding _ binds later => ?_
        cases binds
        exact @adds (.uninitialized declarator) (.uninitialized declarator free) path machine later
    | some initial =>
        refine Preserves.bind (usedValue_preserves invariant evaluated initial) (fun value => ?_)
          path machine holds
        intro path machine holds
        refine (Preserves.pure _ path machine holds).bind fun binding _ binds later => ?_
        cases binds
        exact @adds (.holding declarator (value.cast declarator.type))
          (.holding declarator value free) path machine later

theorem declareCallable_preserves {declared : Callable} (covered : Covers declared.declaration) :
    (declareCallable declared : Watching Unit).Preserves property := by
  refine .bind (.read _) fun _ => .bind (.ofExcept _) fun _ => ?_
  intro path machine holds
  refine (Preserves.read _ path machine holds).bind fun _ _ reads _ => ?_
  cases reads
  refine (Keeps.update (invariant.callableDeclared covered holds)).bind fun _ after _ later => ?_
  exact Preserves.ofExcept _ path after later

omit invariant in
include executed in
theorem block_preserves {statements : List Statement}
    (covered : ∀ statement ∈ statements, Covers statement) :
    (block execute statements).Preserves property := by
  induction statements with
  | nil => exact .pure _
  | cons statement statements ih =>
      rw [List.forall_mem_cons] at covered
      refine .bind (executed statement covered.1) fun flow => ?_
      cases flow with
      | normal =>
          refine .bind (.read _) fun ended => ?_
          split
          · exact .pure _
          · exact ih covered.2
      | skip => exact .pure _
      | stop => exact .pure _
      | giveBack value => exact .pure _

include evaluated executed in
theorem conditional_preserves (test : Expression) {positive : Statement}
    {negative : Option Statement} (positiveCovered : Covers positive)
    (negativeCovered : ∀ statement ∈ negative, Covers statement) :
    (conditional evaluate execute test positive negative).Preserves property := by
  refine .bind (condition_preserves invariant evaluated test) fun decided => ?_
  split
  · exact .bind (invariant.update fun machine => .flagsSet machine _) fun _ =>
      executed positive positiveCovered
  · refine .bind (invariant.update fun machine => .flagsUnset machine _) fun _ => ?_
    cases negative with
    | none => exact .pure _
    | some negative => exact executed negative (negativeCovered negative rfl)

include evaluated executed in
theorem loopStep_preserves {again : Expression → Statement → Watching Flow} {body : Statement}
    (covered : Covers body) (test : Expression)
    (repeated : (again test body).Preserves property) :
    (loopStep evaluate execute again test body).Preserves property := by
  have leaves (flow : Flow) : Preserves property (do
      update (·.unsetFlags .onlyLoop)
      return flow) :=
    .bind (invariant.update fun machine => .flagsUnset machine _) fun _ => .pure flow
  refine .bind (condition_preserves invariant evaluated test) fun decided => ?_
  split
  · refine .bind (invariant.update fun machine => .flagsSet machine _) fun _ =>
      .bind (executed body covered) fun flow => ?_
    cases flow with
    | normal => exact repeated
    | skip => exact repeated
    | stop => exact leaves _
    | giveBack value => exact leaves _
  · exact leaves _

omit invariant in
theorem loopJump_preserves (flow : Flow) (illegal : RuntimeCause) :
    (loopJump flow illegal : Watching Flow).Preserves property := by
  refine .bind (.read _) fun frame => ?_
  split
  · exact .fail _
  · split
    · exact .pure _
    · exact .fail _

include evaluated in
theorem giveBack_preserves (value : Option Expression) :
    (giveBack evaluate value).Preserves property := by
  refine .bind (.read _) fun frame => ?_
  split
  · exact .fail _
  · split
    · exact .fail _
    · split
      · exact .fail _
      · exact .pure _
      · exact .fail _
      · exact .bind (usedValue_preserves invariant evaluated _) fun _ => .pure _

include evaluated executed alike in
theorem matching_keeps {span : Span} {subject : Expression} {body : Statement}
    (isMatch : activity.node = .statement (.matching span subject body)) (covered : Covers body)
    (same : machine.shape = activity.start.shape)
    (holds : property ⟨activity :: path, machine⟩) :
    (matching evaluate execute span subject body).Keeps property (activity :: path) machine := by
  refine (usedValue_preserves invariant evaluated subject _ machine holds).bind
    fun value between finishes later => ?_
  have sameBetween := (shape_of_usedValue alike finishes).trans same
  have opened := invariant.subjectOpened isMatch value sameBetween later
  refine (Keeps.update opened).bind fun _ inside updates _ => ?_
  cases updates
  exact invariant.andFinally (executed body covered) (fun machine => .scopeClosed machine) _ _
    opened

include evaluated executed alike in
theorem statementNode_keeps {rounds : Expression → Statement → Watching Flow}
    (repeated : ∀ test body, Covers body → (rounds test body).Preserves property)
    {statement : Statement} (isNode : activity.node = .statement statement)
    (covered : Covers statement) (same : machine.shape = activity.start.shape)
    (holds : property ⟨activity :: path, machine⟩) :
    (statementNode evaluate execute rounds statement).Keeps property (activity :: path)
      machine := by
  have part (part : Statement) (isPart : part ∈ statement.parts) : Covers part :=
    invariant.parts covered isPart
  cases statement with
  | expression content =>
      exact Preserves.bind (evaluated content) (fun _ => .pure _) _ _ holds
  | «variable» declarator initial =>
      exact Preserves.bind (declareVariable_preserves invariant evaluated declarator initial)
        (fun _ => .pure _) _ _ holds
  | function signature body =>
      have declares := @declareCallable_preserves _ _ invariant (.function signature body) covered
      exact Preserves.bind declares (fun _ => .pure _) _ _ holds
  | pattern signature body =>
      have declares := @declareCallable_preserves _ _ invariant (.pattern signature body) covered
      exact Preserves.bind declares (fun _ => .pure _) _ _ holds
  | compound span children =>
      refine Preserves.bind (invariant.update fun machine => .blockOpened machine)
        (fun _ => ?_) _ _ holds
      exact invariant.andFinally (block_preserves executed part) fun machine => .scopeClosed machine
  | conditional span test positive negative =>
      refine conditional_preserves invariant evaluated executed test
        (part positive List.mem_cons_self) (fun negative found => ?_) _ _ holds
      exact part negative (List.mem_cons_of_mem _ (Option.mem_toList.mpr found))
  | loop span test body => exact repeated test body (part body List.mem_cons_self) _ _ holds
  | skip span => exact loopJump_preserves _ _ _ _ holds
  | stop span => exact loopJump_preserves _ _ _ _ holds
  | giveBack span value => exact giveBack_preserves invariant evaluated value _ _ holds
  | matching span subject body =>
      exact matching_keeps invariant evaluated executed alike isNode
        (part body List.mem_cons_self) same holds
  | empty span => exact Preserves.pure _ _ _ holds

include evaluated executed alike in
theorem statementStep_keeps {rounds : Expression → Statement → Watching Flow}
    (repeated : ∀ test body, Covers body → (rounds test body).Preserves property)
    (maxDepth : Nat) {statement : Statement} (covered : Covers statement)
    (holds : property ⟨⟨.statement statement, machine⟩ :: path, machine⟩) :
    (statementStep evaluate execute rounds maxDepth statement).Keeps property
      (⟨.statement statement, machine⟩ :: path) machine := by
  refine (invariant.enter maxDepth statement.span _ machine holds).bind
    fun _ between enters later => ?_
  rw [action_enter, Action.finished_enter] at enters
  obtain ⟨-, rfl⟩ := enters
  have marks := invariant.quiet (.marked _ statement.span) later
  refine (Keeps.update marks).bind fun _ _ updates _ => ?_
  cases updates
  have sameShape : ({ machine with depth := machine.depth + 1 }.mark statement.span).shape =
    machine.shape := rfl
  have node := @statementNode_keeps _ _ invariant _ _ evaluated executed alike path
    ⟨.statement statement, machine⟩ _ _ repeated statement rfl covered sameShape marks
  refine node.bind fun flow after _ afterwards => ?_
  exact Preserves.bind invariant.leave (fun _ => .pure _) _ after afterwards

end Nodes

end Watching

/-! ## Whole evaluations -/

/-- The node is in progress until it finishes, and then as many scopes are open as when
it began. -/
theorem Moment.Invariant.during {Covers : Statement → Prop} {property : Moment → Prop}
    (invariant : Moment.Invariant Covers property) {α : Type} {watched : Watching α} {node : Node}
    {path : List Activity} {machine : Machine}
    (keeps : watched.Keeps property (⟨node, machine⟩ :: path) machine)
    (closes : ∀ result after,
      watched.action (⟨node, machine⟩ :: path) machine = .finished result after →
        after.shape = machine.shape) :
    (Watching.during node watched).Keeps property path machine where
  passed := keeps.passed
  finished result after ends := by
    refine invariant.ended (keeps.finished result after ends) (closes result after ?_)
    change (watched (⟨node, machine⟩ :: path) machine).ending.outcome = _
    rw [show (watched (⟨node, machine⟩ :: path) machine).ending = _ from ends]
    rfl
  halted := keeps.halted

/-- What agrees with every step holds at every moment of an evaluation. -/
theorem Moment.Invariant.evaluation {Covers : Statement → Prop} {property : Moment → Prop}
    (invariant : Moment.Invariant Covers property) (maxDepth fuel : Nat) :
    (∀ expression, (Watching.evaluation maxDepth fuel expression).Preserves property) ∧
    (∀ statement, Covers statement →
      (Watching.execution maxDepth fuel statement).Preserves property) ∧
    (∀ test body, Covers body →
      (Watching.rounds maxDepth fuel test body).Preserves property) := by
  induction fuel with
  | zero => exact ⟨fun _ => .exhaust, fun _ _ => .exhaust, fun _ _ _ => .exhaust⟩
  | succ fuel ih =>
      obtain ⟨evaluated, executed, repeated⟩ := ih
      have alike (expression : Expression) (path : List Activity) :
          ((Watching.evaluation maxDepth fuel expression).action path).Within Machine.Alike := by
        rw [Watching.action_evaluation]
        exact evaluate_alike maxDepth fuel expression
      refine ⟨?_, ?_, ?_⟩
      · intro expression path machine holds
        have step := Watching.expressionStep_keeps invariant evaluated executed alike maxDepth
          expression (invariant.begun (.expression expression) holds)
        refine invariant.during step fun value after finishes => ?_
        have whole := Watching.action_evaluation maxDepth (fuel + 1) expression path
        have finished : (evaluate maxDepth (fuel + 1) expression : Action Value) machine =
          .finished value after := by rw [← whole]; exact finishes
        exact (evaluate_alike _ _ _ _ _ _ finished).extended.shape_eq
      · intro statement covered path machine holds
        have step := Watching.statementStep_keeps invariant evaluated executed alike repeated
          maxDepth covered (invariant.begun (.statement statement) holds)
        refine invariant.during step fun flow after finishes => ?_
        have whole := Watching.action_execution maxDepth (fuel + 1) statement path
        have finished : (execute maxDepth (fuel + 1) statement : Action Flow) machine =
          .finished flow after := by rw [← whole]; exact finishes
        exact (execute_extended _ _ _ _ _ _ finished).shape_eq
      · intro test body covered
        exact Watching.loopStep_preserves invariant evaluated executed covered test
          (repeated test body covered)

end Plainspoken
