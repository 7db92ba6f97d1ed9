import Plainspoken.Proofs.Separation

/-!
# Evaluation keeps to what it sees

Evaluation takes the same course on two machines that run alongside each other,
and leaves them alongside each other, however it ends.  So a call neither reads
nor writes what is hidden from it.

Every node is treated on its own: if its parts take the same course on both
machines then so does the node.  The statement about whole evaluations follows by
induction on the fuel.
-/

namespace Plainspoken

open Stepping Evaluation

/-! ## Outcomes on two machines -/

/-- Two outcomes of the same kind, with the same result or halt, that leave
related machines. -/
inductive Outcome.Matches {α : Type} (whenFinished : α → Machine → Machine → Prop)
    (whenHalted : Machine → Machine → Prop) : Outcome α → Outcome α → Prop where
  | finished {result : α} {after after' : Machine} (holds : whenFinished result after after') :
      Matches whenFinished whenHalted (.finished result after) (.finished result after')
  | halted {reason : Halt} {after after' : Machine} (holds : whenHalted after after') :
      Matches whenFinished whenHalted (.halted reason after) (.halted reason after')
  | exhausted : Matches whenFinished whenHalted .exhausted .exhausted

theorem Outcome.Matches.mono {α : Type} {whenFinished weaker : α → Machine → Machine → Prop}
    {whenHalted weakerHalted : Machine → Machine → Prop} {outcome outcome' : Outcome α}
    (both : outcome.Matches whenFinished whenHalted outcome')
    (finishedImplied : ∀ result after after', whenFinished result after after' →
      weaker result after after')
    (haltedImplied : ∀ after after', whenHalted after after' → weakerHalted after after') :
    outcome.Matches weaker weakerHalted outcome' := by
  cases both with
  | finished holds => exact .finished (finishedImplied _ _ _ holds)
  | halted holds => exact .halted (haltedImplied _ _ holds)
  | exhausted => exact .exhausted

/-- From these two machines the action ends in the same way and leaves related
machines; if it finishes, its result is good and the stack as high as before. -/
def Action.Agrees {α : Type} (related : Machine → Machine → Prop) (good : α → Prop)
    (action : Action α) (machine machine' : Machine) : Prop :=
  (action machine).Matches
    (fun result after after' => good result ∧ after.stack.height = machine.stack.height ∧
      related after after')
    related (action machine')

/-- The action agrees on any two related machines. -/
def Action.Respects {α : Type} (related : Machine → Machine → Prop) (good : α → Prop)
    (action : Action α) : Prop :=
  ∀ machine machine', related machine machine' → action.Agrees related good machine machine'

namespace Action.Respects

variable {α β : Type} {related : Machine → Machine → Prop} {good : α → Prop} {good' : β → Prop}

theorem pure {result : α} (isGood : good result) :
    (Pure.pure result : Action α).Respects related good :=
  fun _ _ alongside => .finished ⟨isGood, rfl, alongside⟩

theorem halt (reason : Halt) : (Stepping.halt reason : Action α).Respects related good :=
  fun _ _ alongside => .halted alongside

theorem fail (cause : RuntimeCause) : (Stepping.fail cause : Action α).Respects related good :=
  halt (.failed cause)

theorem exhaust : (Stepping.exhaust : Action α).Respects related good :=
  fun _ _ _ => .exhausted

theorem update {change : Machine → Machine}
    (level : ∀ machine, (change machine).stack.height = machine.stack.height)
    (changed : ∀ machine machine', related machine machine' →
      related (change machine) (change machine')) :
    (Stepping.update change : Action Unit).Respects related fun _ => True :=
  fun machine machine' alongside =>
    .finished ⟨trivial, level machine, changed machine machine' alongside⟩

theorem bind {first : Action α} {second : α → Action β} (firstRespects : first.Respects related good)
    (secondRespects : ∀ result, good result → (second result).Respects related good') :
    (first >>= second).Respects related good' := by
  intro machine machine' alongside
  have matched := firstRespects machine machine' alongside
  change (andThen first second machine).Matches _ _ (andThen first second machine')
  unfold andThen
  unfold Agrees at matched
  generalize first machine = ended, first machine' = ended' at matched
  cases matched with
  | finished holds =>
      obtain ⟨isGood, level, between⟩ := holds
      refine (secondRespects _ isGood _ _ between).mono ?_ fun _ _ => id
      rintro result final final' ⟨isGood', level', last⟩
      exact ⟨isGood', level'.trans level, last⟩
  | halted holds => exact .halted holds
  | exhausted => exact .exhausted

/-- What is read is the same on both machines, and what follows may depend on the
machine that it was read from. -/
theorem readThen {view : Machine → α} {second : α → Action β}
    (same : ∀ machine machine', related machine machine' → view machine' = view machine)
    (rest : ∀ machine machine', related machine machine' →
      (second (view machine)).Agrees related good' machine machine') :
    (Stepping.read view >>= second).Respects related good' := by
  intro machine machine' alongside
  have agrees := rest machine machine' alongside
  change (second (view machine) machine).Matches _ _ (second (view machine') machine')
  rw [same machine machine' alongside]
  exact agrees

theorem read {view : Machine → α}
    (same : ∀ machine machine', related machine machine' → view machine' = view machine) :
    (Stepping.read view : Action α).Respects related fun _ => True := by
  intro machine machine' alongside
  change (Outcome.finished (view machine) machine).Matches _ _
    (.finished (view machine') machine')
  rw [same machine machine' alongside]
  exact .finished ⟨trivial, rfl, alongside⟩

theorem andFinally {action : Action α} {change : Machine → Machine}
    (respects : action.Respects related good)
    (level : ∀ machine, (change machine).stack.height = machine.stack.height)
    (changed : ∀ machine machine', related machine machine' →
      related (change machine) (change machine')) :
    (Stepping.andFinally action change).Respects related good := by
  intro machine machine' alongside
  have matched := respects machine machine' alongside
  change ((action machine).mapMachine change).Matches _ _ ((action machine').mapMachine change)
  unfold Agrees at matched
  generalize action machine = ended, action machine' = ended' at matched
  cases matched with
  | finished holds =>
      obtain ⟨isGood, unchanged, after⟩ := holds
      exact .finished ⟨isGood, (level _).trans unchanged, changed _ _ after⟩
  | halted holds => exact .halted (changed _ _ holds)
  | exhausted => exact .exhausted

theorem ofExcept (computed : Except RuntimeCause α) :
    (Stepping.ofExcept computed : Action α).Respects related fun _ => True := by
  cases computed with
  | ok result => exact pure trivial
  | error cause => exact fail cause

theorem ofOption (cause : RuntimeCause) (found : Option α) :
    (Stepping.ofOption cause found : Action α).Respects related fun _ => True := by
  cases found with
  | some result => exact pure trivial
  | none => exact fail cause

/-! ## Steps -/

variable {horizon : Horizon} {start start' : Machine}

theorem modifyCurrent {change : Frame → Frame}
    (kept : ∀ frame, Frame.NoNewReference frame (change frame)) :
    (Stepping.update (·.modifyCurrent change) : Action Unit).Respects
      (horizon.Alongside start start') fun _ => True :=
  update (fun _ => rfl) fun _ _ alongside => alongside.modifyCurrent (kept _)

theorem setFlags (flags : Flags) :
    (Stepping.update (·.setFlags flags) : Action Unit).Respects
      (horizon.Alongside start start') fun _ => True :=
  modifyCurrent fun frame => .setFlags frame flags

theorem unsetFlags (flags : Flags) :
    (Stepping.update (·.unsetFlags flags) : Action Unit).Respects
      (horizon.Alongside start start') fun _ => True :=
  modifyCurrent fun frame => .unsetFlags frame flags

theorem mark (span : Span) :
    (Stepping.update (·.mark span) : Action Unit).Respects
      (horizon.Alongside start start') fun _ => True :=
  modifyCurrent fun _ => .of_eq rfl

theorem emit (emission : Emission) :
    (Stepping.update (·.emit emission) : Action Unit).Respects
      (horizon.Alongside start start') fun _ => True :=
  update (fun _ => rfl) fun _ _ alongside => alongside.of_stack rfl rfl alongside.depth
    alongside.lastValue (congrArg (Array.push · emission) alongside.emitted)

theorem remember (value : Value) :
    (Stepping.update ({ · with lastValue := value }) : Action Unit).Respects
      (horizon.Alongside start start') fun _ => True :=
  update (fun _ => rfl) fun _ _ alongside => alongside.of_stack rfl rfl alongside.depth rfl
    alongside.emitted

theorem leave :
    (Stepping.leave : Action Unit).Respects (horizon.Alongside start start') fun _ => True :=
  update (fun _ => rfl) fun _ _ alongside => alongside.of_stack rfl rfl
    (congrArg (· - 1) alongside.depth) alongside.lastValue alongside.emitted

theorem enter (maxDepth : Nat) (span : Span) :
    (Stepping.enter maxDepth span : Action Unit).Respects
      (horizon.Alongside start start') fun _ => True := by
  refine bind (update (fun _ => rfl) fun _ _ alongside => alongside.of_stack rfl rfl
    (congrArg (· + 1) alongside.depth) alongside.lastValue alongside.emitted) fun _ _ =>
      bind (read fun _ _ alongside => by rw [alongside.depth]) fun tooDeep _ => ?_
  split
  · exact fail _
  · exact pure trivial

theorem valueOf (name : String) :
    (Stepping.valueOf name : Action Value).Respects
      (horizon.Alongside start start') fun _ => True :=
  bind (read fun _ _ alongside => alongside.valueOf name) fun computed _ => ofExcept computed

theorem storeAt {site : Site} (sees : horizon.Sees site) (value : Value) :
    (Stepping.storeAt site value : Action Unit).Respects
      (horizon.Alongside start start') fun _ => True := by
  refine bind (read fun _ _ alongside => by rw [alongside.binding? sees]) fun lives _ => ?_
  split
  · exact update (fun machine => CallStack.height_modifyVariable _ _ _)
      fun _ _ alongside => alongside.store sees value
  · exact fail _

/-- What runs in a scope of its own, which refers to nothing. -/
theorem inScope {running : Action α} {scope : Scope}
    (unreferring : ∀ binding ∈ scope.bindings, binding.reference = none)
    (runs : running.Respects (horizon.Alongside start start') fun _ => True) :
    (do
      Stepping.update (·.pushScope scope)
      Stepping.andFinally running (·.popScope) : Action α).Respects
        (horizon.Alongside start start') fun _ => True :=
  bind (modifyCurrent fun frame => .pushScope frame unreferring) fun _ _ =>
    andFinally runs (fun _ => rfl) fun _ _ alongside => alongside.modifyCurrent (.popScope _)

/-- What runs in a frame of its own, the references of which can be seen. -/
theorem inFrame {running : Action α} {span : Span} {frame : Frame} {result : α → β}
    (seen : ∀ binding ∈ frame.bindings, ∀ site, binding.reference = some site →
      horizon.Sees site)
    (runs : running.Respects (horizon.Alongside start start') fun _ => True) :
    (do
      Stepping.update (·.mark span)
      Stepping.update (·.pushFrame frame)
      let value ← running
      Stepping.update (·.popFrame)
      return result value : Action β).Respects (horizon.Alongside start start') fun _ => True := by
  refine bind (mark span) fun _ _ => ?_
  intro machine machine' alongside
  have inside := alongside.inside
  have matched := runs _ _ (alongside.pushFrame seen)
  change (andThen running _ (machine.pushFrame frame)).Matches _ _
    (andThen running _ (machine'.pushFrame frame))
  unfold andThen
  unfold Agrees at matched
  generalize running (machine.pushFrame frame) = ended,
    running (machine'.pushFrame frame) = ended' at matched
  cases matched with
  | @finished value after after' holds =>
      obtain ⟨-, level, within⟩ := holds
      -- The frame that was opened is still the current one, and it lies above the floor.
      have above : after.stack.height = machine.stack.height + 1 := level
      have height : after.popFrame.stack.height = machine.stack.height := by
        simp only [Machine.popFrame, CallStack.height_pop, above, Nat.add_sub_cancel]
      exact .finished ⟨trivial, height, within.popFrame (by omega)⟩
  | halted holds => exact .halted holds
  | exhausted => exact .exhausted

end Action.Respects

/-! ## Expressions -/

section Nodes

variable {horizon : Horizon} {start start' : Machine}
  {evaluate : Expression → Action Value} {execute : Statement → Action Flow}
  (evaluated : ∀ expression,
    (evaluate expression).Respects (horizon.Alongside start start') fun _ => True)
  (executed : ∀ statement,
    (execute statement).Respects (horizon.Alongside start start') fun _ => True)

include evaluated in
theorem usedValue_respects (expression : Expression) :
    (usedValue evaluate expression).Respects (horizon.Alongside start start') fun _ => True := by
  refine .bind (.read fun _ _ alongside => by rw [alongside.current]) fun expected _ =>
    .bind (.setFlags _) fun _ _ => .andFinally (evaluated expression) ?_ ?_
  · intro machine
    split
    · rfl
    · rfl
  · intro machine machine' alongside
    split
    · exact alongside
    · exact alongside.modifyCurrent (.unsetFlags _ _)

include evaluated in
theorem condition_respects (expression : Expression) :
    (condition evaluate expression).Respects (horizon.Alongside start start') fun _ => True :=
  .bind (usedValue_respects evaluated expression) fun _ _ => .ofOption _ _

include evaluated in
theorem pipe_respects (first : Expression) (success failure : Option Expression) :
    (pipe evaluate first success failure).Respects
      (horizon.Alongside start start') fun _ => True := by
  have failureRespects :
      (pipeFailure evaluate failure).Respects (horizon.Alongside start start') fun _ => True := by
    cases failure with
    | none => exact .pure trivial
    | some failure => exact evaluated failure
  refine .bind (usedValue_respects evaluated first) fun carried _ => .inScope ?_ ?_
  · intro binding member
    have isCarried : binding = pipeVariable first.span carried := by
      simpa [Scope.insertVariable, Scope.empty] using member
    rw [isCarried]
    rfl
  · unfold pipeParts
    split
    · exact failureRespects
    · cases success with
      | none => exact .pure trivial
      | some success =>
          refine .bind (evaluated success) fun value _ => ?_
          split
          · exact failureRespects
          · exact .pure trivial

include evaluated in
theorem assign_respects (target value : Expression) :
    (assign evaluate target value).Respects (horizon.Alongside start start') fun _ => True := by
  unfold assign
  split
  · exact .fail _
  · next name _ =>
    split
    · exact .fail _
    · -- What is found can be seen, and can still be seen once the value is evaluated.
      refine .readThen (fun _ _ alongside => alongside.ownerOf? name) ?_
      intro machine machine' alongside
      suffices respects : Action.Respects (horizon.Alongside start start') (fun _ => True) _ from
        respects machine machine' alongside
      split
      · exact .fail _
      · next owner binding found =>
        have sees := alongside.sees_of_ownerOf? found
        split
        · exact .bind (usedValue_respects evaluated value) fun _ _ =>
            .bind (.storeAt sees _) fun _ _ => .pure trivial
        · exact .fail _

/-! ## Calls -/

include evaluated in
/-- Parameters refer to nothing that cannot be seen. -/
theorem bindArguments_respects (arguments : List Expression) (parameters : List Declarator) :
    (bindArguments evaluate arguments parameters).Respects (horizon.Alongside start start')
      fun bound => ∀ binding ∈ bound, ∀ site, binding.reference = some site →
        horizon.Sees site := by
  induction arguments generalizing parameters with
  | nil => exact .pure (by simp)
  | cons argument arguments ih =>
      cases parameters with
      | nil => exact .pure (by simp)
      | cons parameter parameters =>
          refine .readThen (fun _ _ alongside => alongside.argumentSite? argument) ?_
          intro machine machine' alongside
          suffices respects : Action.Respects (horizon.Alongside start start') _ _ from
            respects machine machine' alongside
          refine .bind (evaluated argument) fun value _ => .bind (ih parameters) fun rest seen =>
            .pure ?_
          intro binding member site refers
          rcases List.mem_cons.mp member with rfl | isRest
          · exact alongside.sees_of_argumentSite? (reference_bindParameter refers)
          · exact seen binding isRest site refers

include evaluated in
theorem runRoutine_respects (routine : Routine) :
    (runRoutine evaluate routine).Respects (horizon.Alongside start start') fun _ => True := by
  have text (operation : String → Option String) :
      (textRoutine operation : Action Value).Respects
        (horizon.Alongside start start') fun _ => True :=
    .bind (.valueOf "t") fun _ _ => .pure trivial
  have split (operation : String → String × Option String) (left right : String) :
      (splitRoutine evaluate operation left right).Respects
        (horizon.Alongside start start') fun _ => True :=
    .bind (.valueOf "source") fun _ _ =>
      .bind (.read fun _ _ alongside => by rw [alongside.current]) fun _ _ =>
        .bind (evaluated _) fun _ _ => evaluated _
  cases routine with
  | print => exact .bind (.valueOf "t") fun _ _ => .bind (.emit _) fun _ _ => .pure trivial
  | quit => exact .halt .quit
  | first => exact text _
  | last => exact text _
  | body => exact text _
  | tail => exact text _
  | split => exact split _ _ _
  | backSplit => exact split _ _ _
  | fizzBuzz =>
      refine .bind (.valueOf "n") fun value _ => ?_
      cases value.asNumber? with
      | none => exact .pure trivial
      | some number => exact .bind (.emit _) fun _ _ => .pure trivial

include executed in
theorem runBody_respects (signature : FunctionSignature) (body : Statement) :
    (runBody execute signature body).Respects
      (horizon.Alongside start start') fun _ => True := by
  have fallsThrough : (fallThrough signature : Action Value).Respects
      (horizon.Alongside start start') fun _ => True := by
    unfold fallThrough
    split
    · exact .read fun _ _ alongside => alongside.lastValue
    · exact .bind (.read fun _ _ alongside => by rw [alongside.current]) fun _ _ =>
        .bind (.emit _) fun _ _ => .read fun _ _ alongside => alongside.lastValue
  refine .bind (executed body) fun flow _ => ?_
  cases flow with
  | giveBack value => exact .pure trivial
  | normal => exact fallsThrough
  | skip => exact fallsThrough
  | stop => exact fallsThrough

include evaluated executed in
theorem callFunction_respects (signature : FunctionSignature) (body : Statement)
    (routine : Option Routine) (arguments : List Expression) (span : Span) :
    (callFunction evaluate execute signature body routine arguments span).Respects
      (horizon.Alongside start start') fun _ => True := by
  refine .bind (.read fun _ _ alongside => by rw [alongside.current]) fun expected _ => ?_
  split
  · exact .fail _
  · refine .bind (bindArguments_respects evaluated arguments signature.parameters)
      fun parameters seen => ?_
    have seenInFrame : ∀ binding ∈ (functionFrame signature span parameters).bindings,
        ∀ site, binding.reference = some site → horizon.Sees site :=
      fun binding member => seen binding (mem_of_mem_bindings_functionFrame member)
    cases routine with
    | none => exact .inFrame seenInFrame (runBody_respects executed signature body)
    | some routine => exact .inFrame seenInFrame (runRoutine_respects evaluated routine)

include evaluated executed in
theorem callPattern_respects (signature : PatternSignature) (body : Statement)
    (routine : Option Routine) (argument : Expression) (span : Span) :
    (callPattern evaluate execute signature body routine argument span).Respects
      (horizon.Alongside start start') fun _ => True := by
  refine .readThen (fun _ _ alongside => alongside.argumentSite? argument) ?_
  intro machine machine' alongside
  suffices respects : Action.Respects (horizon.Alongside start start') (fun _ => True) _ from
    respects machine machine' alongside
  refine .bind (usedValue_respects evaluated argument) fun value _ => ?_
  have seenInFrame : ∀ binding ∈ (patternFrame signature span
      (value.cast signature.parameter.type) (machine.argumentSite? argument)).bindings,
      ∀ site, binding.reference = some site → horizon.Sees site :=
    fun binding member site refers =>
      alongside.sees_of_argumentSite? (reference_patternFrame member refers)
  cases routine with
  | none => exact .inFrame seenInFrame (executed body)
  | some routine => exact .inFrame seenInFrame (runRoutine_respects evaluated routine)

include evaluated executed in
theorem call_respects (name : String) (arguments : List Expression) (span : Span) :
    (call evaluate execute name arguments span).Respects
      (horizon.Alongside start start') fun _ => True := by
  refine .bind (.read fun _ _ alongside => alongside.resolve name arguments.length)
    fun resolved _ => .bind (.ofExcept _) fun found _ => ?_
  cases found with
  | none => exact .fail _
  | some entry =>
      obtain ⟨callable, routine⟩ := entry
      cases callable with
      | function signature body =>
          exact callFunction_respects evaluated executed signature body routine arguments span
      | pattern signature body =>
          cases arguments with
          | nil => exact .pure trivial
          | cons argument _ =>
              exact callPattern_respects evaluated executed signature body routine argument span

include evaluated executed in
theorem expressionStep_respects (maxDepth : Nat) (expression : Expression) :
    (expressionStep evaluate execute maxDepth expression).Respects
      (horizon.Alongside start start') fun _ => True := by
  suffices node : (expressionNode evaluate execute expression).Respects
      (horizon.Alongside start start') fun _ => True from
    .bind (.enter _ _) fun _ _ => .bind (.mark _) fun _ _ => .bind node fun value _ =>
      .bind .leave fun _ _ => .bind (.remember value) fun _ _ => .pure trivial
  cases expression with
  | literal span value => exact .pure trivial
  | identifier span name => exact .valueOf name
  | unary span operator operand =>
      exact .bind (usedValue_respects evaluated operand) fun _ _ => .pure trivial
  | binary span operator left right =>
      exact .bind (usedValue_respects evaluated left) fun _ _ =>
        .bind (usedValue_respects evaluated right) fun _ _ => .ofExcept _
  | ternary span test yes no =>
      refine .bind (condition_respects evaluated test) fun holds _ => ?_
      split
      · exact evaluated yes
      · cases no with
        | none => exact .pure trivial
        | some no => exact evaluated no
  | pipe span first success failure => exact pipe_respects evaluated first success failure
  | noneTest span operand =>
      exact .bind (usedValue_respects evaluated operand) fun _ _ => .pure trivial
  | assign span target value => exact assign_respects evaluated target value
  | call span name arguments => exact call_respects evaluated executed name arguments span

/-! ## Statements -/

theorem addVariable_respects {binding : Variable} (unreferring : binding.reference = none) :
    (addVariable binding : Action Unit).Respects
      (horizon.Alongside start start') fun _ => True := by
  refine .readThen (fun _ _ alongside => by rw [alongside.current]) ?_
  intro machine machine' alongside
  split
  · next frame declared =>
    exact .finished ⟨trivial, rfl,
      alongside.modifyCurrent (.declareVariable _ declared unreferring)⟩
  · exact .halted alongside

include evaluated in
theorem declareVariable_respects (declarator : Declarator) (initial : Option Expression) :
    (declareVariable evaluate declarator initial).Respects
      (horizon.Alongside start start') fun _ => True := by
  unfold declareVariable
  split
  · exact .fail _
  · have adds {binding : Variable} (unreferring : binding.reference = none) :
        (pure binding >>= addVariable : Action Unit).Respects
          (horizon.Alongside start start') fun _ => True :=
      .bind (.pure unreferring) fun _ => addVariable_respects
    cases initial with
    | none => exact adds rfl
    | some initial => exact .bind (usedValue_respects evaluated initial) fun _ _ => adds rfl

theorem declareCallable_respects (declared : Callable) :
    (declareCallable declared : Action Unit).Respects
      (horizon.Alongside start start') fun _ => True := by
  refine .bind (.read fun _ _ alongside => by rw [alongside.globalFrame]) fun _ _ =>
    .bind (.ofExcept _) fun _ _ =>
      .readThen (fun _ _ alongside => by rw [alongside.current]) ?_
  intro machine machine' alongside
  have kept := Frame.NoNewReference.declareCallable machine.current declared
  have declares : horizon.Alongside start start'
      (machine.modifyCurrent fun _ => (machine.current.declareCallable declared).2)
      (machine'.modifyCurrent fun _ => (machine.current.declareCallable declared).2) :=
    alongside.modifyCurrent kept
  exact Action.Respects.ofExcept _ _ _ declares

include executed in
theorem block_respects (statements : List Statement) :
    (block execute statements).Respects (horizon.Alongside start start') fun _ => True := by
  induction statements with
  | nil => exact .pure trivial
  | cons statement statements ih =>
      refine .bind (executed statement) fun flow _ => ?_
      cases flow with
      | normal =>
          refine .bind (.read fun _ _ alongside => by rw [alongside.current]) fun ended _ => ?_
          split
          · exact .pure trivial
          · exact ih
      | skip => exact .pure trivial
      | stop => exact .pure trivial
      | giveBack value => exact .pure trivial

include evaluated executed in
theorem conditional_respects (test : Expression) (positive : Statement)
    (negative : Option Statement) :
    (conditional evaluate execute test positive negative).Respects
      (horizon.Alongside start start') fun _ => True := by
  refine .bind (condition_respects evaluated test) fun holds _ => ?_
  split
  · exact .bind (.setFlags _) fun _ _ => executed positive
  · refine .bind (.unsetFlags _) fun _ _ => ?_
    cases negative with
    | none => exact .pure trivial
    | some negative => exact executed negative

include evaluated executed in
theorem loopStep_respects {again : Expression → Statement → Action Flow}
    (repeated : ∀ test body,
      (again test body).Respects (horizon.Alongside start start') fun _ => True)
    (test : Expression) (body : Statement) :
    (loopStep evaluate execute again test body).Respects
      (horizon.Alongside start start') fun _ => True := by
  refine .bind (condition_respects evaluated test) fun holds _ => ?_
  split
  · refine .bind (.setFlags _) fun _ _ => .bind (executed body) fun flow _ => ?_
    cases flow with
    | normal => exact repeated test body
    | skip => exact repeated test body
    | stop => exact .bind (.unsetFlags _) fun _ _ => .pure trivial
    | giveBack value => exact .bind (.unsetFlags _) fun _ _ => .pure trivial
  · exact .bind (.unsetFlags _) fun _ _ => .pure trivial

theorem loopJump_respects (flow : Flow) (illegal : RuntimeCause) :
    (loopJump flow illegal : Action Flow).Respects
      (horizon.Alongside start start') fun _ => True := by
  refine .bind (.read fun _ _ alongside => alongside.current) fun frame _ => ?_
  split
  · exact .fail _
  · split
    · exact .pure trivial
    · exact .fail _

include evaluated in
theorem giveBack_respects (value : Option Expression) :
    (giveBack evaluate value).Respects (horizon.Alongside start start') fun _ => True := by
  refine .bind (.read fun _ _ alongside => alongside.current) fun frame _ => ?_
  split
  · exact .fail _
  · split
    · exact .fail _
    · split
      · exact .fail _
      · exact .pure trivial
      · exact .fail _
      · exact .bind (usedValue_respects evaluated _) fun _ _ => .pure trivial

include evaluated executed in
theorem matching_respects (span : Span) (subject : Expression) (body : Statement) :
    (matching evaluate execute span subject body).Respects
      (horizon.Alongside start start') fun _ => True := by
  refine .bind (usedValue_respects evaluated subject) fun value _ =>
    .inScope ?_ (executed body)
  intro binding member
  have isSubject : binding = .holding ⟨span, false, value.type, subjectName⟩ value := by
    simpa [subjectScope, Scope.insertVariable, Scope.withFlags, Scope.empty] using member
  rw [isSubject]
  rfl

include executed in
theorem compound_respects (children : List Statement) :
    (compound execute children).Respects (horizon.Alongside start start') fun _ => True := by
  refine .inScope ?_ (block_respects executed children)
  intro binding member
  cases member

include evaluated executed in
theorem statementStep_respects {rounds : Expression → Statement → Action Flow}
    (repeated : ∀ test body,
      (rounds test body).Respects (horizon.Alongside start start') fun _ => True)
    (maxDepth : Nat) (statement : Statement) :
    (statementStep evaluate execute rounds maxDepth statement).Respects
      (horizon.Alongside start start') fun _ => True := by
  suffices node : (statementNode evaluate execute rounds statement).Respects
      (horizon.Alongside start start') fun _ => True from
    .bind (.enter _ _) fun _ _ => .bind (.mark _) fun _ _ => .bind node fun _ _ =>
      .bind .leave fun _ _ => .pure trivial
  cases statement with
  | expression content => exact .bind (evaluated content) fun _ _ => .pure trivial
  | «variable» declarator initial =>
      exact .bind (declareVariable_respects evaluated declarator initial) fun _ _ => .pure trivial
  | function signature body =>
      exact .bind (declareCallable_respects _) fun _ _ => .pure trivial
  | pattern signature body =>
      exact .bind (declareCallable_respects _) fun _ _ => .pure trivial
  | compound span children => exact compound_respects executed children
  | conditional span test positive negative =>
      exact conditional_respects evaluated executed test positive negative
  | loop span test body => exact repeated test body
  | skip span => exact loopJump_respects _ _
  | stop span => exact loopJump_respects _ _
  | giveBack span value => exact giveBack_respects evaluated value
  | matching span subject body => exact matching_respects evaluated executed span subject body
  | empty span => exact .pure trivial

end Nodes

/-! ## Whole evaluations -/

theorem evaluation_respects (horizon : Horizon) (start start' : Machine) (maxDepth fuel : Nat) :
    (∀ expression, (evaluate maxDepth fuel expression : Action Value).Respects
      (horizon.Alongside start start') fun _ => True) ∧
    (∀ statement, (execute maxDepth fuel statement : Action Flow).Respects
      (horizon.Alongside start start') fun _ => True) ∧
    (∀ test body, (executeRounds maxDepth fuel test body : Action Flow).Respects
      (horizon.Alongside start start') fun _ => True) := by
  induction fuel with
  | zero => exact ⟨fun _ => .exhaust, fun _ => .exhaust, fun _ _ => .exhaust⟩
  | succ fuel ih =>
      obtain ⟨evaluated, executed, repeated⟩ := ih
      refine ⟨fun expression => ?_, fun statement => ?_, fun test body => ?_⟩
      · exact expressionStep_respects evaluated executed maxDepth expression
      · exact statementStep_respects evaluated executed repeated maxDepth statement
      · exact loopStep_respects evaluated executed repeated test body

end Plainspoken
