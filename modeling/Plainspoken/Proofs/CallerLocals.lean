import Plainspoken.Proofs.Isolation

/-!
# The variables of callers

A call reaches the variables of its callers through the references of its
parameters only.  It writes to no others of them, and what it does depends on no
others of them.

Both follow from the course of two runs alongside each other: to see what a call
writes, a machine is taken alongside itself, and to see what it reads, two
machines that differ in what the call cannot see.
-/

namespace Plainspoken

open Stepping Evaluation

/-! ## What the current frame sees -/

namespace Machine

/-- How far the current frame sees. -/
def horizon (machine : Machine) : Horizon where
  floor := machine.stack.height
  Shared site := ∃ binding ∈ machine.current.bindings, binding.reference = some site

/-- Two machines that look the same from the current frame: they may differ in
the frames between that one and the one of the program, but not in what the
current frame refers to. -/
structure SameView (first second : Machine) : Prop where
  height : second.stack.height = first.stack.height
  globalFrame : second.stack.globalFrame = first.stack.globalFrame
  current : second.current = first.current
  depth : second.depth = first.depth
  lastValue : second.lastValue = first.lastValue
  emitted : second.emitted = first.emitted
  targets : ∀ binding ∈ first.current.bindings, ∀ site, binding.reference = some site →
    second.stack.binding? site = first.stack.binding? site

theorem SameView.refl (machine : Machine) : machine.SameView machine :=
  ⟨rfl, rfl, rfl, rfl, rfl, rfl, fun _ _ _ _ => rfl⟩

end Machine

theorem Horizon.Kept.refl (horizon : Horizon) (machine : Machine) :
    horizon.Kept machine machine where
  frames height _ := by
    cases machine.stack.frame? height with
    | none => exact .none
    | some frame => exact .some (.refl frame)
  hidden _ _ _ := rfl

/-- The frame of the program has nothing below it to refer to. -/
theorem Machine.Live.not_refers_of_globalFrame {machine : Machine} (live : machine.Live)
    {binding : Variable} (member : binding ∈ machine.stack.globalFrame.bindings) {site : Site} :
    binding.reference ≠ some site := by
  intro refers
  have found : Height.get? machine.stack.frames 0 = some machine.stack.globalFrame := by
    rw [← CallStack.frame?_eq, CallStack.frame?_zero]
  have below := (ReferencesLive.owned_of_get? live found member refers).1
  exact Nat.not_lt_zero _ below

/-- Machines that look the same from the current frame start alongside each
other. -/
theorem Machine.SameView.alongside {first second : Machine} (same : first.SameView second)
    (live : first.Live) : first.horizon.Alongside first second first second where
  depth := same.depth
  lastValue := same.lastValue
  emitted := same.emitted
  height := same.height
  inside := Nat.le_refl _
  frames height isOpen := by
    rcases isOpen with above | rfl
    · rcases Nat.lt_or_eq_of_le above with higher | rfl
      · have higher' : second.stack.height < height := same.height ▸ higher
        rw [CallStack.frame?_eq_none _ higher, CallStack.frame?_eq_none _ higher']
      · have top : second.stack.frame? second.stack.height = some second.current :=
          CallStack.frame?_height _
        rw [same.height, same.current] at top
        exact top.trans (CallStack.frame?_height _).symm
    · rw [CallStack.frame?_zero, CallStack.frame?_zero, same.globalFrame]
  shared site _ shared := by
    obtain ⟨binding, member, refers⟩ := shared
    exact same.targets binding member site refers
  references height frame isOpen found binding member site refers := by
    rcases isOpen with above | rfl
    · rcases Nat.lt_or_eq_of_le above with higher | rfl
      · rw [CallStack.frame?_eq_none _ higher] at found
        cases found
      · have isCurrent : frame = first.current :=
          Option.some.inj (found.symm.trans (CallStack.frame?_height _))
        exact .inr ⟨binding, isCurrent ▸ member, refers⟩
    · rw [CallStack.frame?_zero] at found
      cases found
      exact absurd refers (live.not_refers_of_globalFrame member)
  kept := .refl _ _
  kept' := .refl _ _

/-- Machines alongside each other look the same from the frame that is current
then. -/
theorem Horizon.Alongside.sameView {horizon : Horizon} {start start' machine machine' : Machine}
    (alongside : horizon.Alongside start start' machine machine') : machine.SameView machine' where
  height := alongside.height
  globalFrame := alongside.globalFrame
  current := alongside.current
  depth := alongside.depth
  lastValue := alongside.lastValue
  emitted := alongside.emitted
  targets binding member site refers := by
    have sees := alongside.references machine.stack.height machine.current
      (.inl alongside.inside) (CallStack.frame?_height _) binding member site refers
    exact alongside.binding? sees

/-! ## What a call reads -/

/-- Whatever two machines hold below the current frame, executing a statement ends
in the same way on both as long as they look the same from that frame.  They look
the same afterwards, and so does what the frame referred to before. -/
theorem execution_ignores_hidden_variables (first second : Machine) (live : first.Live)
    (same : first.SameView second) (maxDepth fuel : Nat) (statement : Statement) :
    let kept (after after' : Machine) : Prop := after.SameView after' ∧
      ∀ binding ∈ first.current.bindings, ∀ site, binding.reference = some site →
        after'.stack.binding? site = after.stack.binding? site
    ((execute maxDepth fuel statement : Action Flow) first).Matches
      (fun _ after after' => after.stack.height = first.stack.height ∧ kept after after') kept
      ((execute maxDepth fuel statement : Action Flow) second) := by
  intro kept
  have both := (evaluation_respects first.horizon first second maxDepth fuel).2.1 statement
    first second (same.alongside live)
  have keeps {after after' : Machine}
      (alongside : first.horizon.Alongside first second after after') : kept after after' :=
    ⟨alongside.sameView, fun binding member site refers =>
      alongside.binding? (.inr ⟨binding, member, refers⟩)⟩
  refine both.mono ?_ fun _ _ => keeps
  rintro flow after after' ⟨-, level, alongside⟩
  exact ⟨level, keeps alongside⟩

/-- Two callers whose variable `b` differs, and a call that is lent their variable
`a`: assigning its parameter takes the same course for both. -/
theorem assignment_to_lent_variable_ignores_the_other :
    let place : Span := .firstCharacter
    let caller (hidden : Bool) : Frame := functionFrame ⟨place, "G", false, [], .nothing⟩ place
      [.holding ⟨place, true, .fact, "a"⟩ (.fact true),
        .holding ⟨place, true, .fact, "b"⟩ (.fact hidden)]
    let called : Frame := functionFrame ⟨place, "F", false, [], .nothing⟩ place
      [bindParameter ⟨place, true, .fact, "p"⟩ (.fact true) (some ⟨1, 0, "a"⟩)]
    let machine (hidden : Bool) : Machine :=
      (Machine.initial.pushFrame (caller hidden)).pushFrame called
    let statement : Statement := .expression
      (.assign place (.identifier place "p") (.literal place (.fact false)))
    (machine true).Live ∧ (machine true).SameView (machine false) ∧
    (machine true).stack.binding? ⟨1, 0, "b"⟩ ≠ (machine false).stack.binding? ⟨1, 0, "b"⟩ ∧
    ∃ after after',
      (execute 9 9 statement : Action Flow) (machine true) = .finished .normal after ∧
      (execute 9 9 statement : Action Flow) (machine false) = .finished .normal after' ∧
      after.SameView after' ∧
      after.stack.binding? ⟨1, 0, "a"⟩ ≠ (machine true).stack.binding? ⟨1, 0, "a"⟩ ∧
      after'.stack.binding? ⟨1, 0, "a"⟩ = after.stack.binding? ⟨1, 0, "a"⟩ := by
  intro place caller called machine statement
  have live : (machine true).Live := by
    refine (Machine.Live.initial.pushFrame ?_).pushFrame ?_
    · intro binding member site refers
      have isLocal := mem_of_mem_bindings_functionFrame member
      simp only [List.mem_cons, List.not_mem_nil, or_false] at isLocal
      rcases isLocal with rfl | rfl <;> cases refers
    · intro binding member site refers
      have isParameter := List.mem_singleton.mp (mem_of_mem_bindings_functionFrame member)
      subst isParameter
      cases refers
      exact ⟨_, _, rfl, rfl, rfl, rfl⟩
  have same : (machine true).SameView (machine false) := by
    refine ⟨rfl, rfl, rfl, rfl, rfl, rfl, ?_⟩
    intro binding member site refers
    have isParameter := List.mem_singleton.mp (mem_of_mem_bindings_functionFrame member)
    subst isParameter
    cases refers
    rfl
  have both := execution_ignores_hidden_variables _ _ live same 9 9 statement
  refine ⟨live, same, by decide +kernel, _, _, rfl, rfl, ?_⟩
  cases both with
  | finished holds =>
      obtain ⟨-, view, targets⟩ := holds
      exact ⟨view, by decide +kernel, targets _ List.mem_cons_self _ rfl⟩

/-! ## What a call writes -/

namespace Machine

/-- Since the body of a call began, the frames below it have changed in what
their variables hold at most, and no variable of them but those of the program
and those that the frame of the call refers to. -/
structure WrittenThroughReferences (called after : Machine) : Prop where
  frames : ∀ height < called.stack.height, Option.Rel Frame.AlikeInPlace
    (called.stack.frame? height) (after.stack.frame? height)
  written : ∀ site : Site, site.frame < called.stack.height →
    after.stack.binding? site ≠ called.stack.binding? site →
      site.frame = 0 ∨ ∃ binding ∈ called.current.bindings, binding.reference = some site

/-- Executing any statement in a frame writes to the callers through the
references of the frame. -/
theorem Live.written_of_execute {called : Machine} (live : called.Live) (maxDepth fuel : Nat)
    (statement : Statement) :
    ((execute maxDepth fuel statement : Action Flow) called).Leaves
      called.WrittenThroughReferences := by
  have both := (evaluation_respects called.horizon called called maxDepth fuel).2.1 statement
    called called ((SameView.refl called).alongside live)
  have written {after after' : Machine}
      (alongside : called.horizon.Alongside called called after after') :
      called.WrittenThroughReferences after := by
    refine ⟨alongside.kept.frames, fun site below differs => ?_⟩
    by_contra hidden
    refine differs (alongside.kept.hidden site below fun sees => hidden ?_)
    rcases sees with (above | isGlobal) | shared
    · exact absurd below (Nat.not_lt_of_le above)
    · exact .inl isGlobal
    · exact .inr shared
  unfold Action.Agrees at both
  generalize (execute maxDepth fuel statement : Action Flow) called = ended at both ⊢
  cases both with
  | finished holds => exact written holds.2.2
  | halted holds => exact written holds
  | exhausted => trivial

/-- A parameter that may be assigned stands for the storage of its argument, the
plain name of a variable of the caller that may be assigned. -/
structure Lends (caller : Machine) (parameter : Declarator) (argument : Expression)
    (site : Site) : Prop where
  assignable : parameter.isMutable = true
  named : ∃ place name found binding, argument = .identifier place name ∧
    caller.stack.find? name = some found ∧ caller.stack.binding? found = some binding ∧
    binding.declarator.isMutable = true ∧ caller.stack.owner found = site
  owned : Owned caller.stack.frames site

theorem Live.lends {caller : Machine} (live : caller.Live) {parameter : Declarator}
    (assignable : parameter.isMutable = true) {argument : Expression} {site : Site}
    (lent : caller.argumentSite? argument = some site) : caller.Lends parameter argument site := by
  refine ⟨assignable, ?_, live.owned_of_argumentSite? lent⟩
  unfold argumentSite? at lent
  simp only [Option.bind_eq_bind, Option.bind_eq_some_iff] at lent
  obtain ⟨name, isName, found, nameFound, binding, bindingFound, ending⟩ := lent
  split at ending
  · next mutable =>
    cases argument with
    | identifier place other =>
        cases isName
        exact ⟨place, name, found, binding, rfl, nameFound, bindingFound, mutable,
          Option.some.inj ending⟩
    | literal | unary | binary | ternary | pipe | noneTest | assign | call => cases isName
  · cases ending

/-- The storage that an argument names depends on no value. -/
theorem Alike.argumentSite? {before after : Machine} (alike : before.Alike after)
    (argument : Expression) : after.argumentSite? argument = before.argumentSite? argument := by
  unfold Machine.argumentSite?
  cases argument.name? with
  | none => rfl
  | some name =>
      simp only [Option.bind_eq_bind, Option.bind_some]
      rw [alike.stack.find? name]
      cases before.stack.find? name with
      | none => rfl
      | some site =>
          simp only [Option.bind_some, alike.stack.owner site]
          have bindings := alike.stack.binding? site
          generalize before.stack.binding? site = first,
            after.stack.binding? site = second at bindings
          cases bindings with
          | none => rfl
          | some related => simp [related.declarator]

/-- A call of a function or pattern that the program declares: what is called and
its body, the parameters with their arguments, and the machine on which the body
begins, with the frame of the call on top. -/
inductive Calls (maxDepth fuel : Nat) (caller : Machine) :
    Action Value → Statement → List (Declarator × Expression) → Machine → Prop where
  | function {signature : FunctionSignature} {body : Statement} {arguments : List Expression}
      {span : Span} {parameters : List Variable} {between : Machine}
      (permitted : ¬ (signature.returns = .nothing ∧
        caller.current.hasFlags .onlyExpectValue = true))
      (binds : (bindArguments (evaluate maxDepth fuel) arguments signature.parameters :
        Action (List Variable)) caller = .finished parameters between) :
      Calls maxDepth fuel caller
        (callFunction (evaluate maxDepth fuel) (execute maxDepth fuel) signature body none
          arguments span)
        body (signature.parameters.zip arguments)
        ((between.mark span).pushFrame (functionFrame signature span parameters))
  | pattern {signature : PatternSignature} {body : Statement} {argument : Expression}
      {span : Span} {value : Value} {between : Machine}
      (evaluates : (usedValue (evaluate maxDepth fuel) argument : Action Value) caller =
        .finished value between) :
      Calls maxDepth fuel caller
        (callPattern (evaluate maxDepth fuel) (execute maxDepth fuel) signature body none
          argument span)
        body [(signature.parameter, argument)]
        ((between.mark span).pushFrame (patternFrame signature span
          (value.cast signature.parameter.type) (caller.argumentSite? argument)))

end Machine

private theorem eq_bindParameter_of_refers {parameter : Declarator} {value : Value}
    {argument : Option Site} {site : Site}
    (refers : (bindParameter parameter value argument).reference = some site) :
    parameter.isMutable = true ∧ argument = some site := by
  refine ⟨?_, reference_bindParameter refers⟩
  by_contra immutable
  simp [bindParameter, immutable] at refers

private theorem eq_bindParameter_of_mem_patternFrame {signature : PatternSignature} {span : Span}
    {value : Value} {argument : Option Site} {binding : Variable} {site : Site}
    (member : binding ∈ (patternFrame signature span value argument).bindings)
    (refers : binding.reference = some site) :
    binding = bindParameter signature.parameter value argument := by
  have unflagged : (patternFrame signature span value argument).bindings = _ :=
    Frame.bindings_modifyInnermost _ fun _ => rfl
  rw [unflagged] at member
  rcases Frame.eq_or_mem_of_mem_insertVariable _ member with isParameter | isSubject
  · exact isParameter
  · rcases Frame.eq_or_mem_of_mem_insertVariable _ isSubject with rfl | inStart
    · cases refers
    · cases inStart

/-- Parameters stand for storage of the caller as it was before any argument was
evaluated. -/
theorem bindArguments_lent {evaluate : Expression → Action Value}
    (evaluated : ∀ expression, (evaluate expression).Within Machine.Alike)
    (arguments : List Expression) (parameters : List Declarator) (machine : Machine) :
    (bindArguments evaluate arguments parameters).Ensures machine fun bound _ =>
      ∀ binding ∈ bound, ∀ site, binding.reference = some site →
        ∃ passed ∈ parameters.zip arguments, binding.declarator = passed.1 ∧
          passed.1.isMutable = true ∧ machine.argumentSite? passed.2 = some site := by
  induction arguments generalizing parameters machine with
  | nil =>
      rw [bindArguments, Action.ensures_pure]
      · intro binding member
        cases member
      · simp
  | cons argument arguments ih =>
      cases parameters with
      | nil =>
          rw [bindArguments, Action.ensures_pure]
          · intro binding member
            cases member
          · simp
      | cons parameter parameters =>
          simp only [bindArguments, Action.ensures_bind, Action.ensures_read,
            Action.ensures_pure]
          intro value between evaluates rest after bindsRest binding member site refers
          rcases List.mem_cons.mp member with rfl | isRest
          · obtain ⟨assignable, lent⟩ := eq_bindParameter_of_refers refers
            exact ⟨(parameter, argument), List.mem_cons_self, rfl, assignable, lent⟩
          · have alike := evaluated argument machine value between evaluates
            obtain ⟨passed, isPassed, declared, assignable, lent⟩ :=
              ih parameters between rest after bindsRest binding isRest site refers
            rw [alike.argumentSite?] at lent
            exact ⟨passed, List.mem_cons_of_mem _ isPassed, declared, assignable, lent⟩

namespace Machine.Calls

variable {maxDepth fuel : Nat} {caller called : Machine} {call : Action Value}
  {body : Statement} {passing : List (Declarator × Expression)}

/-- The call goes on with its body. -/
theorem runs_body (calls : caller.Calls maxDepth fuel call body passing called) :
    ∃ closing : Flow → Action Value,
      call caller = (execute maxDepth fuel body >>= closing : Action Value) called := by
  cases calls with
  | @function signature body arguments span parameters between permitted binds =>
      let closing (flow : Flow) : Action Value := do
        let value ← runBody (fun _ => pure flow) signature body
        update (·.popFrame)
        return if signature.returns = .nothing then .nothing else value
      refine ⟨closing, ?_⟩
      change (ite (signature.returns = .nothing ∧
        caller.current.hasFlags .onlyExpectValue = true) _ _ : Action Value) caller = _
      rw [if_neg permitted]
      change Action.andThen (bindArguments (evaluate maxDepth fuel) arguments
        signature.parameters) _ caller = _
      unfold Action.andThen
      rw [binds]
      let called := (between.mark span).pushFrame (functionFrame signature span parameters)
      change Action.andThen (Action.andThen (execute maxDepth fuel body) _) _ called =
        Action.andThen (execute maxDepth fuel body) closing called
      unfold Action.andThen
      cases (execute maxDepth fuel body : Action Flow) called with
      | finished flow after => cases flow <;> rfl
      | halted reason after => rfl
      | exhausted => rfl
  | @pattern signature body argument span value between evaluates =>
      let closing (_ : Flow) : Action Value := do
        update (·.popFrame)
        return .nothing
      refine ⟨closing, ?_⟩
      change Action.andThen (usedValue (evaluate maxDepth fuel) argument) _ caller = _
      unfold Action.andThen
      rw [evaluates]
      rfl

/-- What the frame of the call refers to is lent by the caller. -/
theorem lent (calls : caller.Calls maxDepth fuel call body passing called) (live : caller.Live) :
    ∀ binding ∈ called.current.bindings, ∀ site, binding.reference = some site →
      ∃ passed ∈ passing, binding.declarator = passed.1 ∧
        caller.Lends passed.1 passed.2 site := by
  intro binding member site refers
  cases calls with
  | function permitted binds =>
      obtain ⟨passed, isPassed, declared, assignable, lent⟩ :=
        bindArguments_lent (evaluate_alike maxDepth fuel) _ _ caller _ _ binds binding
          (mem_of_mem_bindings_functionFrame member) site refers
      exact ⟨passed, isPassed, declared, live.lends assignable lent⟩
  | pattern evaluates =>
      have isParameter := eq_bindParameter_of_mem_patternFrame member refers
      subst isParameter
      obtain ⟨assignable, lent⟩ := eq_bindParameter_of_refers refers
      exact ⟨_, List.mem_singleton_self _, rfl, live.lends assignable lent⟩

/-- Evaluating the arguments changes values only. -/
theorem opens_frame (calls : caller.Calls maxDepth fuel call body passing called) :
    ∃ between frame, caller.Alike between ∧ called = between.pushFrame frame := by
  cases calls with
  | function permitted binds =>
      have alike := bindArguments_alike (evaluate_alike maxDepth fuel) _ _ caller _ _ binds
      exact ⟨_, _, alike.trans (.mark _ _), rfl⟩
  | pattern evaluates =>
      have alike := usedValue_alike (evaluate_alike maxDepth fuel) _ caller _ _ evaluates
      exact ⟨_, _, alike.trans (.mark _ _), rfl⟩

/-- All that the caller lends is still there below the frame of the call. -/
theorem called_live (calls : caller.Calls maxDepth fuel call body passing called)
    (live : caller.Live) : called.Live := by
  have lent := calls.lent live
  obtain ⟨between, frame, alike, rfl⟩ := calls.opens_frame
  refine (live.of_alike alike).pushFrame ?_
  intro binding member site refers
  obtain ⟨passed, -, -, lends⟩ := lent binding member site refers
  exact lends.owned.of_alike alike.stack.frames

end Machine.Calls

/-- However the body of a call ends, no variable below its frame has changed but
those of the program and those that its parameters refer to; and a parameter
refers to anything only if it may be assigned and its argument is the plain name
of a variable that may be assigned. -/
theorem calls_write_through_references_only (maxDepth fuel : Nat) (caller called : Machine)
    (call : Action Value) (body : Statement) (passing : List (Declarator × Expression))
    (live : caller.Live) (calls : caller.Calls maxDepth fuel call body passing called) :
    (∃ closing : Flow → Action Value,
      call caller = (execute maxDepth fuel body >>= closing : Action Value) called) ∧
    ((execute maxDepth fuel body : Action Flow) called).Leaves
      called.WrittenThroughReferences ∧
    ∀ binding ∈ called.current.bindings, ∀ site, binding.reference = some site →
      ∃ passed ∈ passing, binding.declarator = passed.1 ∧
        caller.Lends passed.1 passed.2 site := by
  have calledLive := calls.called_live live
  exact ⟨calls.runs_body, calledLive.written_of_execute maxDepth fuel body, calls.lent live⟩

/-- A function that assigns both of its parameters, of which only the first may be
assigned: called with two variables, it writes to the first of them, and fails at
the second. -/
theorem assigning_call_writes_to_lent_variable :
    let place : Span := .firstCharacter
    let assignable (name : String) : Variable := .holding ⟨place, true, .fact, name⟩ (.fact true)
    let caller : Machine := Machine.initial.pushFrame
      (functionFrame ⟨place, "G", false, [], .nothing⟩ place [assignable "a", assignable "b"])
    let parameters : List Declarator := [⟨place, true, .fact, "p"⟩, ⟨place, false, .fact, "q"⟩]
    let arguments : List Expression := [.identifier place "a", .identifier place "b"]
    let assigning (name : String) : Statement := .expression
      (.assign place (.identifier place name) (.literal place (.fact false)))
    let body : Statement := .compound place [assigning "p", assigning "q"]
    let call : Action Value := callFunction (evaluate 9 9) (execute 9 9)
      ⟨place, "F", false, parameters, .nothing⟩ body none arguments place
    ∃ called after, caller.Live ∧ caller.Calls 9 9 call body (parameters.zip arguments) called ∧
      (execute 9 9 body : Action Flow) called =
        .halted (.failed (.variableImmutable "q")) after ∧
      after.stack.binding? ⟨1, 0, "a"⟩ ≠ called.stack.binding? ⟨1, 0, "a"⟩ ∧
      called.WrittenThroughReferences after ∧
      caller.Lends ⟨place, true, .fact, "p"⟩ (.identifier place "a") ⟨1, 0, "a"⟩ := by
  intro place assignable caller parameters arguments assigning body call
  have live : caller.Live := by
    refine Machine.Live.initial.pushFrame ?_
    intro binding member site refers
    have isLocal := mem_of_mem_bindings_functionFrame member
    simp only [List.mem_cons, List.not_mem_nil, or_false] at isLocal
    rcases isLocal with rfl | rfl <;> cases refers
  let called (bound : List Variable) (between : Machine) : Machine :=
    (between.mark place).pushFrame
      (functionFrame ⟨place, "F", false, parameters, .nothing⟩ place bound)
  obtain ⟨bound, between, binds, refers, runs⟩ : ∃ bound between,
      (bindArguments (evaluate 9 9) arguments parameters : Action (List Variable)) caller =
        .finished bound between ∧
      (called bound between).current.bindings.map Variable.reference =
        [none, some ⟨1, 0, "a"⟩] ∧
      (match (execute 9 9 body : Action Flow) (called bound between) with
        | .halted (.failed (.variableImmutable "q")) after => decide
            (after.stack.binding? ⟨1, 0, "a"⟩ ≠
              (called bound between).stack.binding? ⟨1, 0, "a"⟩)
        | _ => false) = true :=
    ⟨_, _, rfl, by decide +kernel, by decide +kernel⟩
  have calls : caller.Calls 9 9 call body (parameters.zip arguments) (called bound between) :=
    .function (by decide +kernel) binds
  obtain ⟨-, leaves, lent⟩ :=
    calls_write_through_references_only 9 9 caller _ call body _ live calls
  have lends : caller.Lends ⟨place, true, .fact, "p"⟩ (.identifier place "a") ⟨1, 0, "a"⟩ := by
    obtain ⟨binding, member, refersToLent⟩ :=
      List.mem_map.mp (refers ▸ List.mem_cons_of_mem _ List.mem_cons_self)
    obtain ⟨passed, isPassed, -, lends⟩ := lent binding member _ refersToLent
    simp only [parameters, arguments, List.zip_cons_cons, List.zip_nil_right, List.mem_cons,
      List.not_mem_nil, or_false] at isPassed
    rcases isPassed with rfl | rfl
    · exact lends
    · cases lends.assignable
  split at runs
  · next after ended =>
    rw [ended] at leaves
    exact ⟨_, after, live, calls, ended, of_decide_eq_true runs, leaves, lends⟩
  · cases runs

end Plainspoken
