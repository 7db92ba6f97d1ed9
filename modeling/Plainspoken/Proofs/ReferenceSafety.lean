import Plainspoken.Proofs.Effects
import Plainspoken.Proofs.Reachability
import Plainspoken.Proofs.References

/-!
# References never dangle

References are live on every machine that a session passes through, also in the
middle of an evaluation and after a halt that left frames open.

An argument is bound to the storage it names before the arguments after it are
evaluated.  Evaluating them changes values only, so the storage is still there
when the frame of the call is opened, and nothing takes it away while that frame
is open.  An assignment likewise finds its storage before its value is evaluated.
-/

namespace Plainspoken

open List (Forall₂)
open Stepping Evaluation

/-! ## Machines -/

namespace Machine

/-- All references on the stack are live. -/
def Live (machine : Machine) : Prop :=
  ReferencesLive machine.stack.frames

namespace Live

variable {machine : Machine}

theorem of_alike {after : Machine} (live : machine.Live) (alike : machine.Alike after) :
    after.Live :=
  ReferencesLive.of_alike alike.stack.frames live

theorem modifyCurrent {change : Frame → Frame} (live : machine.Live)
    (kept : Frame.NoNewReference machine.current (change machine.current)) :
    (machine.modifyCurrent change).Live :=
  ReferencesLive.current kept live

theorem pushScope {scope : Scope} (live : machine.Live)
    (unreferring : ∀ binding ∈ scope.bindings, binding.reference = none) :
    (machine.pushScope scope).Live :=
  live.modifyCurrent (.pushScope machine.current unreferring)

theorem popScope (live : machine.Live) : machine.popScope.Live :=
  live.modifyCurrent (.popScope machine.current)

theorem setFlags (live : machine.Live) (flags : Flags) : (machine.setFlags flags).Live :=
  live.modifyCurrent (.setFlags machine.current flags)

theorem unsetFlags (live : machine.Live) (flags : Flags) : (machine.unsetFlags flags).Live :=
  live.modifyCurrent (.unsetFlags machine.current flags)

theorem mark (live : machine.Live) (span : Span) : (machine.mark span).Live :=
  live.of_alike (.mark machine span)

theorem store (live : machine.Live) (site : Site) (value : Value) :
    (machine.store site value).Live :=
  live.of_alike (.store machine site value)

/-- A frame may be put on top if its references are owned below it. -/
theorem pushFrame {frame : Frame} (live : machine.Live)
    (owned : ∀ binding ∈ frame.bindings, ∀ site, binding.reference = some site →
      Owned machine.stack.frames site) :
    (machine.pushFrame frame).Live :=
  ⟨owned, live⟩

theorem popFrame (live : machine.Live) : machine.popFrame.Live := by
  obtain ⟨⟨current, callers⟩, depth, lastValue, emitted⟩ := machine
  cases callers with
  | nil => exact live
  | cons caller callers => exact live.2

/-- The storage behind a variable that is found can be assigned if the variable
can. -/
theorem owned_owner (live : machine.Live) {site : Site} {binding : Variable}
    (found : machine.stack.binding? site = some binding)
    (assignable : binding.declarator.isMutable = true) :
    Owned machine.stack.frames (machine.stack.owner site) := by
  unfold CallStack.owner
  rw [found, Option.bind_some]
  unfold CallStack.binding? at found
  obtain ⟨frame, frameFound, bindingFound⟩ := Option.bind_eq_some_iff.mp found
  rw [CallStack.frame?_eq] at frameFound
  cases refers : binding.reference with
  | none => exact ⟨frame, binding, frameFound, bindingFound, refers, assignable⟩
  | some target =>
      have member := Frame.mem_bindings_of_binding? bindingFound
      exact (ReferencesLive.owned_of_get? live frameFound member refers).2

theorem owned_of_argumentSite? (live : machine.Live) {argument : Expression} {site : Site}
    (named : machine.argumentSite? argument = some site) : Owned machine.stack.frames site := by
  unfold Machine.argumentSite? at named
  simp only [Option.bind_eq_bind, Option.bind_eq_some_iff] at named
  obtain ⟨name, -, found, -, binding, bindingFound, ending⟩ := named
  split at ending
  · next assignable =>
    cases ending
    exact live.owned_owner bindingFound assignable
  · cases ending

/-- Where a name is found, what it stands for is stored. -/
theorem isSome_binding?_owner (live : machine.Live) {name : String} {site : Site}
    (found : machine.stack.find? name = some site) :
    (machine.stack.binding? (machine.stack.owner site)).isSome = true := by
  obtain ⟨binding, bindingFound⟩ :=
    Option.isSome_iff_exists.mp (CallStack.isSome_binding?_of_find? found)
  cases refers : binding.reference with
  | none =>
      have itself : machine.stack.owner site = site := by
        simp [CallStack.owner, bindingFound, refers]
      rw [itself, bindingFound]
      rfl
  | some target =>
      have elsewhere : machine.stack.owner site = target := by
        simp [CallStack.owner, bindingFound, refers]
      obtain ⟨frame, frameFound, inFrame⟩ := Option.bind_eq_some_iff.mp bindingFound
      rw [CallStack.frame?_eq] at frameFound
      have member := Frame.mem_bindings_of_binding? inFrame
      obtain ⟨-, owner, stored, ownerFound, storedFound, -⟩ :=
        ReferencesLive.owned_of_get? live frameFound member refers
      rw [elsewhere, CallStack.binding?, CallStack.frame?_eq, ownerFound, Option.bind_some,
        storedFound]
      rfl

end Live

theorem Live.initial : Machine.initial.Live := by
  refine ⟨?_, trivial⟩
  intro binding member
  cases member

end Machine

/-! ## Nodes -/

/-- On a machine with live references every machine passed has live references. -/
def Tracing.Secure {α : Type} (traced : Tracing α) : Prop :=
  ∀ machine : Machine, machine.Live → traced.Keeps Machine.Live machine

namespace Tracing.Secure

variable {α β : Type}

theorem pure (result : α) : Secure (Pure.pure result : Tracing α) :=
  fun _ live => .pure result live

theorem read (view : Machine → α) : Secure (Stepping.read view : Tracing α) :=
  fun _ live => .read view live

theorem update {change : Machine → Machine}
    (changed : ∀ machine : Machine, machine.Live → (change machine).Live) :
    Secure (Stepping.update change : Tracing Unit) :=
  fun machine live => .update (changed machine live)

theorem halt (reason : Halt) : Secure (Stepping.halt reason : Tracing α) :=
  fun _ live => .halt reason live

theorem fail (cause : RuntimeCause) : Secure (Stepping.fail cause : Tracing α) :=
  halt (.failed cause)

theorem bind {first : Tracing α} {second : α → Tracing β} (firstSecure : Secure first)
    (secondSecure : ∀ result, Secure (second result)) : Secure (first >>= second) :=
  fun machine live => (firstSecure machine live).bind fun result between _ betweenLive =>
    secondSecure result between betweenLive

theorem andFinally {traced : Tracing α} {change : Machine → Machine} (secure : Secure traced)
    (changed : ∀ machine : Machine, machine.Live → (change machine).Live) :
    Secure (Stepping.andFinally traced change) :=
  fun machine live => (secure machine live).andFinally changed

theorem ofExcept (computed : Except RuntimeCause α) :
    Secure (Stepping.ofExcept computed : Tracing α) := by
  cases computed with
  | ok result => exact pure result
  | error cause => exact fail cause

theorem ofOption (cause : RuntimeCause) (found : Option α) :
    Secure (Stepping.ofOption cause found : Tracing α) := by
  cases found with
  | some result => exact pure result
  | none => exact fail cause

theorem valueOf (name : String) : Secure (Stepping.valueOf name : Tracing Value) :=
  bind (read _) fun computed => ofExcept computed

theorem storeAt (site : Site) (value : Value) :
    Secure (Stepping.storeAt site value : Tracing Unit) := by
  refine bind (read _) fun lives => ?_
  split
  · exact update fun machine live => live.store site value
  · exact fail _

theorem enter (maxDepth : Nat) (span : Span) :
    Secure (Stepping.enter maxDepth span : Tracing Unit) := by
  refine bind (update fun _ live => live) fun _ => bind (read _) fun tooDeep => ?_
  split
  · exact fail _
  · exact pure _

theorem emit (emission : Emission) : Secure (Stepping.update (·.emit emission)) :=
  update fun _ live => live

end Tracing.Secure

/-- The references among bound parameters are owned. -/
def ReferencesOwned (frames : List Frame) (parameters : List Variable) : Prop :=
  ∀ binding ∈ parameters, ∀ site, binding.reference = some site → Owned frames site

theorem reference_bindParameter {parameter : Declarator} {value : Value} {argument : Option Site}
    {site : Site} (refers : (bindParameter parameter value argument).reference = some site) :
    argument = some site := by
  simp only [bindParameter] at refers
  split at refers
  · exact refers
  · cases refers

private theorem mem_of_mem_bindings_foldl {parameters : List Variable} {frame : Frame}
    {binding : Variable}
    (member : binding ∈ (parameters.foldl Frame.insertVariable frame).bindings) :
    binding ∈ parameters ∨ binding ∈ frame.bindings := by
  induction parameters generalizing frame with
  | nil => exact .inr member
  | cons parameter parameters ih =>
      rcases ih member with later | earlier
      · exact .inl (List.mem_cons_of_mem parameter later)
      · rcases Frame.eq_or_mem_of_mem_insertVariable frame earlier with rfl | inFrame
        · exact .inl List.mem_cons_self
        · exact .inr inFrame

theorem mem_of_mem_bindings_functionFrame {signature : FunctionSignature} {span : Span}
    {parameters : List Variable} {binding : Variable}
    (member : binding ∈ (functionFrame signature span parameters).bindings) :
    binding ∈ parameters := by
  have unflagged : (functionFrame signature span parameters).bindings =
      (parameters.foldl Frame.insertVariable
        (Frame.start signature.name span signature.returns)).bindings :=
    Frame.bindings_modifyInnermost _ fun _ => rfl
  rw [unflagged] at member
  rcases mem_of_mem_bindings_foldl member with isParameter | inStart
  · exact isParameter
  · cases inStart

theorem reference_patternFrame {signature : PatternSignature} {span : Span} {value : Value}
    {argument : Option Site} {binding : Variable} {site : Site}
    (member : binding ∈ (patternFrame signature span value argument).bindings)
    (refers : binding.reference = some site) : argument = some site := by
  have unflagged : (patternFrame signature span value argument).bindings = _ :=
    Frame.bindings_modifyInnermost _ fun _ => rfl
  rw [unflagged] at member
  rcases Frame.eq_or_mem_of_mem_insertVariable _ member with rfl | isSubject
  · exact reference_bindParameter refers
  · rcases Frame.eq_or_mem_of_mem_insertVariable _ isSubject with rfl | inStart
    · cases refers
    · cases inStart

/-- The sites that arguments are bound to are still owned once all arguments
have been evaluated. -/
theorem bindArguments_owned {evaluate : Expression → Action Value}
    (evaluated : ∀ expression, (evaluate expression).Within Machine.Alike)
    (arguments : List Expression) (parameters : List Declarator) (machine : Machine)
    (live : machine.Live) :
    (bindArguments evaluate arguments parameters).Ensures machine fun bound after =>
      ReferencesOwned after.stack.frames bound := by
  induction arguments generalizing parameters machine with
  | nil =>
      rw [bindArguments, Action.ensures_pure]
      intro binding member
      cases member
      simp
  | cons argument arguments ih =>
      cases parameters with
      | nil =>
          rw [bindArguments, Action.ensures_pure]
          intro binding member
          cases member
          simp
      | cons parameter parameters =>
          simp only [bindArguments, Action.ensures_bind, Action.ensures_read,
            Action.ensures_pure]
          intro value between evaluates rest after bindsRest
          have firstAlike := evaluated argument machine value between evaluates
          have restAlike :=
            bindArguments_alike evaluated arguments parameters between rest after bindsRest
          have restOwned := ih parameters between (live.of_alike firstAlike) rest after bindsRest
          intro binding member site refers
          rcases List.mem_cons.mp member with rfl | isRest
          · have named := reference_bindParameter refers
            have owned := live.owned_of_argumentSite? named
            exact owned.of_alike (firstAlike.trans restAlike).stack.frames
          · exact restOwned binding isRest site refers

section Nodes

open Tracing

variable {evaluate : Expression → Tracing Value} {execute : Statement → Tracing Flow}
  (evaluated : ∀ expression, (evaluate expression).Secure)
  (executed : ∀ statement, (execute statement).Secure)
  (alike : ∀ expression, (evaluate expression).action.Within Machine.Alike)

include evaluated in
theorem usedValue_secure (expression : Expression) : (usedValue evaluate expression).Secure := by
  refine .bind (.read _) fun expected =>
    .bind (.update fun machine live => live.setFlags _) fun _ =>
      .andFinally (evaluated expression) fun machine live => ?_
  split
  · exact live
  · exact live.unsetFlags _

include evaluated in
theorem condition_secure (expression : Expression) : (condition evaluate expression).Secure :=
  .bind (usedValue_secure evaluated expression) fun _ => .ofOption _ _

include evaluated in
theorem pipe_secure (first : Expression) (success failure : Option Expression) :
    (pipe evaluate first success failure).Secure := by
  have failureSecure : (pipeFailure evaluate failure).Secure := by
    cases failure with
    | none => exact .pure _
    | some failure => exact evaluated failure
  refine .bind (usedValue_secure evaluated first) fun carried => .bind (.update ?_) fun _ =>
    .andFinally ?_ fun machine live => live.popScope
  · intro machine live
    apply live.pushScope
    intro binding member
    have isCarried : binding = pipeVariable first.span carried := by
      simpa [Scope.insertVariable, Scope.empty] using member
    rw [isCarried]
    rfl
  · unfold pipeParts
    split
    · exact failureSecure
    · cases success with
      | none => exact .pure _
      | some success =>
          refine .bind (evaluated success) fun value => ?_
          split
          · exact failureSecure
          · exact .pure _

include evaluated in
theorem assign_secure (target value : Expression) : (assign evaluate target value).Secure := by
  unfold assign
  split
  · exact .fail _
  · split
    · exact .fail _
    · refine .bind (.read _) fun found => ?_
      split
      · exact .fail _
      · split
        · exact .bind (usedValue_secure evaluated value) fun _ =>
            .bind (.storeAt _ _) fun _ => .pure _
        · exact .fail _

/-! ## Calls -/

include evaluated in
theorem bindArguments_secure (arguments : List Expression) (parameters : List Declarator) :
    (bindArguments evaluate arguments parameters).Secure := by
  induction arguments generalizing parameters with
  | nil => exact .pure _
  | cons argument arguments ih =>
      cases parameters with
      | nil => exact .pure _
      | cons parameter parameters =>
          exact .bind (.read _) fun _ => .bind (evaluated argument) fun _ =>
            .bind (ih parameters) fun _ => .pure _

include evaluated in
theorem runRoutine_secure (routine : Routine) : (runRoutine evaluate routine).Secure := by
  have text (operation : String → Option String) :
      (textRoutine operation : Tracing Value).Secure :=
    .bind (.valueOf "t") fun _ => .pure _
  have split (operation : String → String × Option String) (left right : String) :
      (splitRoutine evaluate operation left right).Secure :=
    .bind (.valueOf "source") fun _ => .bind (.read _) fun _ =>
      .bind (evaluated _) fun _ => evaluated _
  cases routine with
  | print => exact .bind (.valueOf "t") fun _ => .bind (.emit _) fun _ => .pure _
  | quit => exact .halt .quit
  | first => exact text _
  | last => exact text _
  | body => exact text _
  | tail => exact text _
  | split => exact split _ _ _
  | backSplit => exact split _ _ _
  | fizzBuzz =>
      refine .bind (.valueOf "n") fun value => ?_
      cases value.asNumber? with
      | none => exact .pure _
      | some number => exact .bind (.emit _) fun _ => .pure _

include executed in
theorem runBody_secure (signature : FunctionSignature) (body : Statement) :
    (runBody execute signature body).Secure := by
  have fallsThrough : (fallThrough signature : Tracing Value).Secure := by
    unfold fallThrough
    split
    · exact .read _
    · exact .bind (.read _) fun _ => .bind (.emit _) fun _ => .read _
  refine .bind (executed body) fun flow => ?_
  cases flow with
  | giveBack value => exact .pure _
  | normal => exact fallsThrough
  | skip => exact fallsThrough
  | stop => exact fallsThrough

/-- What is secure may run in a frame of its own if the references of that frame
are owned. -/
theorem inFrame_keeps {α β : Type} {running : Tracing α} (runs : running.Secure) {span : Span}
    {frame : Frame} {result : α → β} {machine : Machine} (live : machine.Live)
    (owned : ReferencesOwned machine.stack.frames frame.bindings) :
    (do
      update (·.mark span)
      update (·.pushFrame frame)
      let value ← running
      update (·.popFrame)
      return result value : Tracing β).Keeps Machine.Live machine := by
  have markedAlike := Machine.Alike.mark machine span
  refine Keeps.bind (.update (live.mark span)) fun _ between marks marked => ?_
  cases marks
  have ownedStill : ReferencesOwned (machine.mark span).stack.frames frame.bindings :=
    fun binding member site refers =>
      (owned binding member site refers).of_alike markedAlike.stack.frames
  refine Keeps.bind (.update (marked.pushFrame ownedStill)) fun _ inside _ insideLive => ?_
  have rest : (do
      let value ← running
      update (·.popFrame)
      return result value : Tracing β).Secure :=
    .bind runs fun _ => .bind (.update fun _ live => live.popFrame) fun _ => .pure _
  exact rest inside insideLive

include evaluated executed alike in
theorem callFunction_secure (signature : FunctionSignature) (body : Statement)
    (routine : Option Routine) (arguments : List Expression) (span : Span) :
    (callFunction evaluate execute signature body routine arguments span).Secure := by
  refine .bind (.read _) fun expected => ?_
  split
  · exact .fail _
  · intro machine live
    refine Keeps.bind (bindArguments_secure evaluated arguments signature.parameters machine live)
      fun parameters between binds betweenLive => ?_
    have owned : ReferencesOwned between.stack.frames parameters := by
      rw [action_bindArguments] at binds
      exact bindArguments_owned alike arguments signature.parameters machine live parameters
        between binds
    have ownedInFrame : ReferencesOwned between.stack.frames
        (functionFrame signature span parameters).bindings :=
      fun binding member => owned binding (mem_of_mem_bindings_functionFrame member)
    cases routine with
    | none => exact inFrame_keeps (runBody_secure executed signature body) betweenLive ownedInFrame
    | some routine =>
        exact inFrame_keeps (runRoutine_secure evaluated routine) betweenLive ownedInFrame

include evaluated executed alike in
theorem callPattern_secure (signature : PatternSignature) (body : Statement)
    (routine : Option Routine) (argument : Expression) (span : Span) :
    (callPattern evaluate execute signature body routine argument span).Secure := by
  intro machine live
  refine Keeps.bind (.read _ live) fun site _ reads _ => ?_
  cases reads
  refine Keeps.bind (usedValue_secure evaluated argument machine live)
    fun value between evaluates betweenLive => ?_
  have owned : ReferencesOwned between.stack.frames (patternFrame signature span
      (value.cast signature.parameter.type) (machine.argumentSite? argument)).bindings := by
    rw [action_usedValue] at evaluates
    have evaluatesAlike := usedValue_alike alike argument machine value between evaluates
    intro binding member site refers
    have named := reference_patternFrame member refers
    exact (live.owned_of_argumentSite? named).of_alike evaluatesAlike.stack.frames
  cases routine with
  | none => exact inFrame_keeps (executed body) betweenLive owned
  | some routine => exact inFrame_keeps (runRoutine_secure evaluated routine) betweenLive owned

include evaluated executed alike in
theorem call_secure (name : String) (arguments : List Expression) (span : Span) :
    (call evaluate execute name arguments span).Secure := by
  refine .bind (.read _) fun resolved => .bind (.ofExcept _) fun found => ?_
  cases found with
  | none => exact .fail _
  | some entry =>
      obtain ⟨callable, routine⟩ := entry
      cases callable with
      | function signature body =>
          exact callFunction_secure evaluated executed alike signature body routine arguments span
      | pattern signature body =>
          cases arguments with
          | nil => exact .pure _
          | cons argument _ =>
              exact callPattern_secure evaluated executed alike signature body routine argument
                span

include evaluated executed alike in
theorem expressionStep_secure (maxDepth : Nat) (expression : Expression) :
    (expressionStep evaluate execute maxDepth expression).Secure := by
  refine .bind (.enter _ _) fun _ => .bind (.update fun _ live => live.mark _) fun _ =>
    .bind ?_ fun _ => .bind (.update fun _ live => live) fun _ =>
      .bind (.update fun _ live => live) fun _ => .pure _
  cases expression with
  | literal span value => exact .pure _
  | identifier span name => exact .valueOf name
  | unary span operator operand =>
      exact .bind (usedValue_secure evaluated operand) fun _ => .pure _
  | binary span operator left right =>
      exact .bind (usedValue_secure evaluated left) fun _ =>
        .bind (usedValue_secure evaluated right) fun _ => .ofExcept _
  | ternary span test yes no =>
      refine .bind (condition_secure evaluated test) fun holds => ?_
      split
      · exact evaluated yes
      · cases no with
        | none => exact .pure _
        | some no => exact evaluated no
  | pipe span first success failure => exact pipe_secure evaluated first success failure
  | noneTest span operand =>
      exact .bind (usedValue_secure evaluated operand) fun _ => .pure _
  | assign span target value => exact assign_secure evaluated target value
  | call span name arguments =>
      exact call_secure evaluated executed alike name arguments span

/-! ## Statements -/

theorem addVariable_secure {binding : Variable} (unreferring : binding.reference = none) :
    (addVariable binding : Tracing Unit).Secure := by
  intro machine live
  refine Keeps.bind (.read _ live) fun _ _ reads _ => ?_
  cases reads
  split
  · next frame declared =>
    exact .update (live.modifyCurrent (.declareVariable _ declared unreferring))
  · exact .halt _ live

include evaluated in
theorem declareVariable_secure (declarator : Declarator) (initial : Option Expression) :
    (declareVariable evaluate declarator initial).Secure := by
  unfold declareVariable
  split
  · exact .fail _
  · cases initial with
    | none =>
        intro machine live
        refine Keeps.bind (.pure _ live) fun binding between binds betweenLive => ?_
        cases binds
        exact addVariable_secure rfl machine betweenLive
    | some initial =>
        refine .bind (usedValue_secure evaluated initial) fun value => ?_
        intro machine live
        refine Keeps.bind (.pure _ live) fun binding between binds betweenLive => ?_
        cases binds
        exact addVariable_secure rfl machine betweenLive

theorem declareCallable_secure (declared : Callable) :
    (declareCallable declared : Tracing Unit).Secure := by
  refine .bind (.read _) fun _ => .bind (.ofExcept _) fun _ => ?_
  intro machine live
  refine Keeps.bind (.read _ live) fun result _ reads _ => ?_
  cases reads
  have kept := Frame.NoNewReference.declareCallable machine.current declared
  exact Keeps.bind (.update (live.modifyCurrent kept)) fun _ between _ betweenLive =>
    Secure.ofExcept _ between betweenLive

include executed in
theorem block_secure (statements : List Statement) : (block execute statements).Secure := by
  induction statements with
  | nil => exact .pure _
  | cons statement statements ih =>
      refine .bind (executed statement) fun flow => ?_
      cases flow with
      | normal =>
          refine .bind (.read _) fun ended => ?_
          split
          · exact .pure _
          · exact ih
      | skip => exact .pure _
      | stop => exact .pure _
      | giveBack value => exact .pure _

include evaluated executed in
theorem conditional_secure (test : Expression) (positive : Statement)
    (negative : Option Statement) :
    (conditional evaluate execute test positive negative).Secure := by
  refine .bind (condition_secure evaluated test) fun holds => ?_
  split
  · exact .bind (.update fun _ live => live.setFlags _) fun _ => executed positive
  · refine .bind (.update fun _ live => live.unsetFlags _) fun _ => ?_
    cases negative with
    | none => exact .pure _
    | some negative => exact executed negative

include evaluated executed in
theorem loopStep_secure {again : Expression → Statement → Tracing Flow}
    (repeated : ∀ test body, (again test body).Secure) (test : Expression) (body : Statement) :
    (loopStep evaluate execute again test body).Secure := by
  refine .bind (condition_secure evaluated test) fun holds => ?_
  split
  · refine .bind (.update fun _ live => live.setFlags _) fun _ =>
      .bind (executed body) fun flow => ?_
    cases flow with
    | normal => exact repeated test body
    | skip => exact repeated test body
    | stop => exact .bind (.update fun _ live => live.unsetFlags _) fun _ => .pure _
    | giveBack value => exact .bind (.update fun _ live => live.unsetFlags _) fun _ => .pure _
  · exact .bind (.update fun _ live => live.unsetFlags _) fun _ => .pure _

theorem loopJump_secure (flow : Flow) (illegal : RuntimeCause) :
    (loopJump flow illegal : Tracing Flow).Secure := by
  refine .bind (.read _) fun frame => ?_
  split
  · exact .fail _
  · split
    · exact .pure _
    · exact .fail _

include evaluated in
theorem giveBack_secure (value : Option Expression) : (giveBack evaluate value).Secure := by
  refine .bind (.read _) fun frame => ?_
  split
  · exact .fail _
  · split
    · exact .fail _
    · split
      · exact .fail _
      · exact .pure _
      · exact .fail _
      · exact .bind (usedValue_secure evaluated _) fun _ => .pure _

include evaluated executed in
theorem matching_secure (span : Span) (subject : Expression) (body : Statement) :
    (matching evaluate execute span subject body).Secure := by
  refine .bind (usedValue_secure evaluated subject) fun value => .bind (.update ?_) fun _ =>
    .andFinally (executed body) fun _ live => live.popScope
  intro machine live
  apply live.pushScope
  intro binding member
  have isSubject : binding = .holding ⟨span, false, value.type, subjectName⟩ value := by
    simpa [subjectScope, Scope.insertVariable, Scope.withFlags, Scope.empty] using member
  rw [isSubject]
  rfl

include executed in
theorem compound_secure (children : List Statement) : (compound execute children).Secure := by
  refine .bind (.update fun machine live => live.pushScope ?_) fun _ =>
    .andFinally (block_secure executed children) fun _ live => live.popScope
  intro binding member
  cases member

include evaluated executed in
theorem statementStep_secure {rounds : Expression → Statement → Tracing Flow}
    (repeated : ∀ test body, (rounds test body).Secure) (maxDepth : Nat)
    (statement : Statement) :
    (statementStep evaluate execute rounds maxDepth statement).Secure := by
  refine .bind (.enter _ _) fun _ => .bind (.update fun _ live => live.mark _) fun _ =>
    .bind ?_ fun _ => .bind (.update fun _ live => live) fun _ => .pure _
  cases statement with
  | expression content => exact .bind (evaluated content) fun _ => .pure _
  | «variable» declarator initial =>
      exact .bind (declareVariable_secure evaluated declarator initial) fun _ => .pure _
  | function signature body => exact .bind (declareCallable_secure _) fun _ => .pure _
  | pattern signature body => exact .bind (declareCallable_secure _) fun _ => .pure _
  | compound span children => exact compound_secure executed children
  | conditional span test positive negative =>
      exact conditional_secure evaluated executed test positive negative
  | loop span test body => exact repeated test body
  | skip span => exact loopJump_secure _ _
  | stop span => exact loopJump_secure _ _
  | giveBack span value => exact giveBack_secure evaluated value
  | matching span subject body => exact matching_secure evaluated executed span subject body
  | empty span => exact .pure _

end Nodes

/-! ## Whole evaluations -/

theorem evaluation_secure (maxDepth fuel : Nat) :
    (∀ expression, (evaluate maxDepth fuel expression : Tracing Value).Secure) ∧
    (∀ statement, (execute maxDepth fuel statement : Tracing Flow).Secure) ∧
    (∀ test body, (executeRounds maxDepth fuel test body : Tracing Flow).Secure) := by
  induction fuel with
  | zero => exact ⟨fun _ _ _ => .exhaust, fun _ _ _ => .exhaust, fun _ _ _ _ => .exhaust⟩
  | succ fuel ih =>
      obtain ⟨evaluated, executed, repeated⟩ := ih
      have alike (expression : Expression) :
          (evaluate maxDepth fuel expression : Tracing Value).action.Within Machine.Alike := by
        rw [Tracing.action_evaluate]
        exact evaluate_alike maxDepth fuel expression
      refine ⟨fun expression => ?_, fun statement => ?_, fun test body => ?_⟩
      · exact expressionStep_secure evaluated executed alike maxDepth expression
      · exact statementStep_secure evaluated executed repeated maxDepth statement
      · exact loopStep_secure evaluated executed repeated test body

theorem live_invariant : Machine.Invariant Machine.Live where
  initial := .initial
  emitted _ live := live
  executed maxDepth fuel statement _ live :=
    (evaluation_secure maxDepth fuel).2.1 statement _ live
  evaluated maxDepth fuel expression _ live :=
    (evaluation_secure maxDepth fuel).1 expression _ live

end Plainspoken
