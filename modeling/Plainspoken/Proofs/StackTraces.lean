import Plainspoken.Proofs.CallableTable
import Plainspoken.Proofs.ReservedNames
import Plainspoken.Proofs.Transcripts

/-!
# What a stack trace tells

A failure is reported with a line for every open frame: its name and the place it has
reached.  The place of a frame changes with every node that begins in it, also while the
arguments of a call are evaluated.  But a call marks its own place before it opens a
frame, and from then on nothing is evaluated in the frame below.  So below the top every
frame stands at the call that opened the next one, and every frame has the name that was
called.

The call is in progress as long as its frame is open.  It is the innermost node that
began while the frame below was on top: the nodes inside it began in its frame, or above.
-/

namespace Plainspoken

open Stepping Evaluation

/-! ## Names and places of frames -/

/-- A machine has no frame that was not there before; each has kept its name, and each
below the top its place. -/
structure Machine.KeepsCalls (machine after : Machine) : Prop where
  height : after.stack.height ≤ machine.stack.height
  names : ∀ height ≤ after.stack.height,
    (after.stack.frame? height).map Frame.name = (machine.stack.frame? height).map Frame.name
  places : ∀ height < after.stack.height,
    (after.stack.frame? height).map Frame.span = (machine.stack.frame? height).map Frame.span

namespace Machine.KeepsCalls

variable {machine after : Machine}

theorem of_stack_eq (same : after.stack = machine.stack) : machine.KeepsCalls after :=
  ⟨Nat.le_of_eq (by rw [same]), fun _ _ => by rw [same], fun _ _ => by rw [same]⟩

theorem modifyCurrent {change : Frame → Frame}
    (kept : (change machine.current).name = machine.current.name) :
    machine.KeepsCalls (machine.modifyCurrent change) where
  height := Nat.le_refl _
  names height _ := by
    rw [Machine.modifyCurrent, CallStack.frame?_modifyCurrent]
    split
    · next isTop =>
      rw [isTop, CallStack.frame?_height, Option.map_some, Option.map_some]
      exact congrArg some kept
    · rfl
  places height below := by
    have notTop : height ≠ machine.stack.height := Nat.ne_of_lt below
    rw [Machine.modifyCurrent, CallStack.frame?_modifyCurrent, if_neg notTop]

theorem popFrame (machine : Machine) : machine.KeepsCalls machine.popFrame := by
  rcases Nat.eq_zero_or_pos machine.stack.height with single | several
  · obtain ⟨⟨current, callers⟩, depth, lastValue, emitted⟩ := machine
    obtain rfl : callers = [] := List.eq_nil_of_length_eq_zero single
    exact .of_stack_eq rfl
  · have height : machine.popFrame.stack.height = machine.stack.height - 1 :=
      machine.stack.height_pop
    have kept {height : Nat} (below : height < machine.stack.height) :
        machine.popFrame.stack.frame? height = machine.stack.frame? height :=
      machine.stack.frame?_pop below
    refine ⟨by omega, fun _ within => ?_, fun _ within => ?_⟩
    · rw [kept (by omega)]
    · rw [kept (by omega)]

theorem store (machine : Machine) (site : Site) (value : Value) :
    machine.KeepsCalls (machine.store site value) := by
  have kept {α : Type} (view : Frame → α)
      (same : ∀ frame : Frame, view (frame.modifyVariable site.scope site.name (·.store value)) =
        view frame) (height : Nat) :
      ((machine.store site value).stack.frame? height).map view =
        (machine.stack.frame? height).map view := by
    rw [Machine.store, CallStack.frame?_modifyVariable]
    split
    · rw [Option.map_map]
      exact congrArg (Option.map · _) (funext same)
    · rfl
  exact ⟨Nat.le_of_eq (CallStack.height_modifyVariable _ _ _),
    fun height _ => kept Frame.name (fun _ => rfl) height,
    fun height _ => kept Frame.span (fun _ => rfl) height⟩

end Machine.KeepsCalls

/-- A quiet change leaves all calls where they are, or ends the innermost one. -/
theorem Machine.Quiet.keepsCalls {machine after : Machine} (quiet : machine.Quiet after) :
    machine.KeepsCalls after := by
  cases quiet with
  | noted depth lastValue emitted => exact .of_stack_eq rfl
  | marked span => exact .modifyCurrent rfl
  | flagsSet flags => exact .modifyCurrent rfl
  | flagsUnset flags => exact .modifyCurrent rfl
  | blockOpened => exact .modifyCurrent rfl
  | scopeClosed => exact .modifyCurrent rfl
  | frameClosed => exact .popFrame machine
  | stored assigns value => exact .store machine _ _
  | variableDeclared fresh declares =>
      exact .modifyCurrent (Frame.Extended.declareVariable declares).name

/-! ## The calls behind the frames -/

/-- The innermost of the nodes in progress that began while the frame at a height was on
top. -/
def Moment.caller? (moment : Moment) (height : Nat) : Option Activity :=
  moment.path.find? (·.start.stack.height == height)

/-- The lowest frame is that of the program.  Every other one has the name that a call in
progress refers to, and the frame below has reached the place of that call. -/
structure Moment.NamesCalls (moment : Moment) : Prop where
  program : (moment.machine.stack.frame? 0).map Frame.name = some Machine.mainName
  calls : ∀ height < moment.machine.stack.height, ∃ activity span name arguments,
    moment.caller? height = some activity ∧
    activity.node = .expression (.call span name arguments) ∧
    (moment.machine.stack.frame? height).map Frame.span = some span ∧
    (moment.machine.stack.frame? (height + 1)).map Frame.name = some name

/-- What a call refers to has the name that is called. -/
theorem Frame.name_of_resolve {frame : Frame} {name : String} {arity : Nat} {entry : Entry}
    (resolves : frame.resolve name arity = .ok (some entry)) : entry.callable.name = name := by
  unfold Frame.resolve at resolves
  split at resolves
  · cases resolves
  · next found isFound =>
    obtain ⟨scope, -, declared⟩ := List.exists_of_findSome?_eq_some isFound
    split at resolves
    · cases resolves
      exact (Callable.answers_iff.mp (Callable.answers_of_declared? declared)).1
    · cases resolves

private theorem Machine.name_of_resolve {machine : Machine} {name : String} {arity : Nat}
    {entry : Entry}
    (resolves : resolve machine name arity = .ok (some entry)) : entry.callable.name = name := by
  unfold Evaluation.resolve at resolves
  cases outside : machine.stack.globalFrame.resolve name arity with
  | error cause =>
      rw [outside] at resolves
      cases resolves
  | ok found =>
      rw [outside] at resolves
      cases found with
      | none => exact Frame.name_of_resolve resolves
      | some global =>
          cases resolves
          exact Frame.name_of_resolve outside

theorem Frame.name_functionFrame (signature : FunctionSignature) (span : Span)
    (parameters : List Variable) :
    (functionFrame signature span parameters).name = signature.name := by
  change (parameters.foldl Frame.insertVariable _).name = _
  generalize started : Frame.start signature.name span signature.returns = frame
  have named : frame.name = signature.name := by rw [← started]; rfl
  clear started
  induction parameters generalizing frame with
  | nil => exact named
  | cons parameter parameters ih => exact ih (frame.insertVariable parameter) named

namespace Moment.NamesCalls

variable {path : List Activity} {activity : Activity} {machine after : Machine}

theorem of_keepsCalls (named : NamesCalls ⟨path, machine⟩) (kept : machine.KeepsCalls after) :
    NamesCalls ⟨path, after⟩ where
  program := (kept.names 0 (Nat.zero_le _)).trans named.program
  calls height below := by
    obtain ⟨activity, span, name, arguments, isCaller, isCall, place, callee⟩ :=
      named.calls height (Nat.lt_of_lt_of_le below kept.height)
    exact ⟨activity, span, name, arguments, isCaller, isCall,
      (kept.places height below).trans place, (kept.names (height + 1) below).trans callee⟩

theorem of_fresh (fresh : machine.stack = Machine.initial.stack) :
    NamesCalls ⟨[], machine⟩ where
  program := by
    change (machine.stack.frame? 0).map Frame.name = _
    rw [fresh]
    rfl
  calls height below := by
    change height < machine.stack.height at below
    rw [fresh] at below
    exact absurd below (Nat.not_lt_zero height)

/-- A node that begins with the top frame has no frame above. -/
theorem begun (named : NamesCalls ⟨path, machine⟩)
    (same : activity.start.stack.height = machine.stack.height) :
    NamesCalls ⟨activity :: path, machine⟩ where
  program := named.program
  calls height below := by
    have elsewhere : (activity.start.stack.height == height) = false := by
      rw [same]
      exact beq_false_of_ne (Nat.ne_of_gt below)
    obtain ⟨caller, span, name, arguments, isCaller, rest⟩ := named.calls height below
    exact ⟨caller, span, name, arguments,
      (List.find?_cons_of_neg (by simp [elsewhere])).trans isCaller, rest⟩

theorem ended (named : NamesCalls ⟨activity :: path, machine⟩)
    (same : activity.start.stack.height = machine.stack.height) :
    NamesCalls ⟨path, machine⟩ where
  program := named.program
  calls height below := by
    have elsewhere : (activity.start.stack.height == height) = false := by
      rw [same]
      exact beq_false_of_ne (Nat.ne_of_gt below)
    obtain ⟨caller, span, name, arguments, isCaller, rest⟩ := named.calls height below
    exact ⟨caller, span, name, arguments,
      (List.find?_cons_of_neg (by simp [elsewhere])).symm.trans isCaller, rest⟩

/-- A call opens a frame: it is the innermost node, and has marked its place. -/
theorem pushFrame {span : Span} {name : String} {arguments : List Expression} {frame : Frame}
    (named : NamesCalls ⟨activity :: path, machine⟩)
    (isCall : activity.node = .expression (.call span name arguments))
    (same : activity.start.stack.height = machine.stack.height)
    (marked : machine.current.span = span) (callee : frame.name = name) :
    NamesCalls ⟨activity :: path, machine.pushFrame frame⟩ := by
  have frameAt (height : Nat) : (machine.pushFrame frame).stack.frame? height =
      if height = machine.stack.height + 1 then some frame else machine.stack.frame? height :=
    machine.stack.frame?_push frame height
  refine ⟨?_, fun height below => ?_⟩
  · rw [frameAt, if_neg (by omega)]
    exact named.program
  · have within : height ≤ machine.stack.height := Nat.le_of_lt_succ below
    rcases Nat.lt_or_eq_of_le within with lower | rfl
    · rw [frameAt, frameAt, if_neg (by omega), if_neg (by omega)]
      exact named.calls height lower
    · refine ⟨activity, span, name, arguments, ?_, isCall, ?_, ?_⟩
      · exact List.find?_cons_of_pos (by simp [same])
      · rw [frameAt, if_neg (by omega), CallStack.frame?_height]
        exact congrArg some marked
      · rw [frameAt, if_pos rfl]
        exact congrArg some callee

end Moment.NamesCalls

/-- The names and places of frames agree with the calls in progress at every moment. -/
theorem namesCalls_invariant : Moment.Invariant (fun _ => True) Moment.NamesCalls where
  parts _ _ := trivial
  begun _ named := named.begun rfl
  ended named same := named.ended (Machine.height_eq_of_shape_eq same).symm
  quiet change named := named.of_keepsCalls change.keepsCalls
  callableDeclared {_ machine declared} _ named :=
    named.of_keepsCalls
      (.modifyCurrent (Frame.Extended.declareCallable machine.current declared).name)
  bodies _ _ := trivial
  pipeOpened _ _ _ named := named.of_keepsCalls (.modifyCurrent rfl)
  subjectOpened _ _ _ named := named.of_keepsCalls (.modifyCurrent rfl)
  functionOpened {_ _ _ span _ _ signature _ _ parameters} isCall resolves _ _ marked same
      named :=
    named.pushFrame isCall (Machine.height_eq_of_shape_eq same).symm marked
      ((Frame.name_functionFrame signature span parameters).trans
        (Machine.name_of_resolve resolves))
  patternOpened isCall resolves _ _ marked same named :=
    named.pushFrame isCall (Machine.height_eq_of_shape_eq same).symm marked
      (Machine.name_of_resolve resolves)

/-! ## Nodes that requests leave in progress -/

/-- The moment at which an action ends that began inside the given nodes. -/
def Conclusion.moment? {α : Type} (path : List Activity) : Conclusion α → Option Moment
  | .finished _ machine => some ⟨path, machine⟩
  | .halted _ moment => some moment
  | .exhausted => none

private theorem Conclusion.moment?_of_finished {α : Type} {ending : Conclusion α} {result : α}
    {machine : Machine} (finishes : ending.outcome = .finished result machine)
    (path : List Activity) : ending.moment? path = some ⟨path, machine⟩ := by
  cases ending with
  | finished _ _ =>
      cases finishes
      rfl
  | halted _ _ => cases finishes
  | exhausted => cases finishes

theorem Conclusion.exists_halted {α : Type} {ending : Conclusion α} {reason : Halt}
    {machine : Machine} (halts : ending.outcome = .halted reason machine) :
    ∃ moment, ending = .halted reason moment ∧ moment.machine = machine := by
  cases ending with
  | finished _ _ => cases halts
  | halted _ moment =>
      cases halts
      exact ⟨moment, rfl, rfl⟩
  | exhausted => cases halts

theorem Watching.Keeps.of_moment? {α : Type} {property : Moment → Prop} {watched : Watching α}
    {path : List Activity} {machine : Machine} {moment : Moment}
    (keeps : watched.Keeps property path machine)
    (ends : (watched path machine).ending.moment? path = some moment) : property moment := by
  cases ending : (watched path machine).ending with
  | finished result after =>
      rw [ending] at ends
      cases ends
      exact keeps.finished result after ending
  | halted reason _ =>
      rw [ending] at ends
      cases ends
      exact keeps.halted reason moment ending
  | exhausted =>
      rw [ending] at ends
      cases ends

/-- The sessions that requests lead to, with the nodes that the requests have begun and not
finished, the innermost first.  They are left by requests that were halted, since what such
a request has opened may be open still.  A run ends on a fresh machine with none. -/
inductive Session.Pending : List Activity → Session → Prop where
  | start (limits : Limits) : Pending [] (.start limits)
  | build {path : List Activity} {session : Session} (pending : Pending path session)
      (source : String) : Pending path (session.build source).2
  | reset {path : List Activity} {session : Session} (pending : Pending path session) :
      Pending [] session.reset
  | run {path : List Activity} {session : Session} (pending : Pending path session)
      (machine : Machine) : Pending [] { session with machine := machine.reset }
  | performed {path : List Activity} {session : Session} {fuel : Nat} {statement : Statement}
      {moment : Moment} (pending : Pending path session)
      (ends : (Watching.execution session.limits.maxDepth fuel statement path
        session.machine).ending.moment? path = some moment) :
      Pending moment.path { session with machine := moment.machine }
  | evaluated {path : List Activity} {session : Session} {fuel : Nat} {expression : Expression}
      {moment : Moment} (pending : Pending path session)
      (ends : (Watching.evaluation session.limits.maxDepth fuel expression path
        session.machine).ending.moment? path = some moment) :
      Pending moment.path { session with machine := moment.machine }
  | takeEmitted {path : List Activity} {session : Session} (pending : Pending path session) :
      Pending path session.takeEmitted.2

namespace Session

theorem Pending.performOn? {path : List Activity} {limits : Limits} {program : Option Statement}
    {start machine : Machine} {fuel : Nat} {statements : List Statement}
    {performance : Performance} (pending : Pending path ⟨limits, program, start⟩)
    (performs : Session.performOn? limits.maxDepth fuel statements start =
      some (performance, machine)) :
    ∃ path, Pending path ⟨limits, program, machine⟩ := by
  induction statements generalizing path start performance with
  | nil =>
      cases performs
      exact ⟨path, pending⟩
  | cons statement statements ih =>
      have watches := congrFun (Watching.action_execution limits.maxDepth fuel statement path) start
      rw [Session.performOn?] at performs
      split at performs
      · next flow between finished =>
        rw [finished] at watches
        obtain ⟨⟨rest, ending⟩, restPerforms, same⟩ := Option.map_eq_some_iff.mp performs
        cases same
        exact ih (pending.performed (Conclusion.moment?_of_finished watches path)) restPerforms
      · next halt between halted =>
        rw [halted] at watches
        obtain ⟨moment, ends, rfl⟩ := Conclusion.exists_halted watches
        cases performs
        exact ⟨moment.path, pending.performed (congrArg (Conclusion.moment? path) ends)⟩
      · cases performs

theorem Pending.evaluate? {path : List Activity} {session after : Session} {fuel : Nat}
    {expression : Expression} {result : Except Halt Value} (pending : Pending path session)
    (evaluates : session.evaluate? fuel expression = some (result, after)) :
    ∃ path, Pending path after := by
  have watches := congrFun (Watching.action_evaluation session.limits.maxDepth fuel expression
    path) session.machine
  unfold Session.evaluate? at evaluates
  dsimp only at evaluates
  split at evaluates
  · next value between finished =>
    rw [finished] at watches
    cases evaluates
    exact ⟨path, pending.evaluated (Conclusion.moment?_of_finished watches path)⟩
  · next halt between halted =>
    rw [halted] at watches
    obtain ⟨moment, ends, rfl⟩ := Conclusion.exists_halted watches
    cases evaluates
    exact ⟨moment.path, pending.evaluated (congrArg (Conclusion.moment? path) ends)⟩
  · cases evaluates

/-- In every session that is reached it is settled which nodes are in progress. -/
theorem Reached.exists_pending {session : Session} (reached : session.Reached) :
    ∃ path, Pending path session := by
  induction reached with
  | start limits => exact ⟨[], .start limits⟩
  | build reached source ih =>
      obtain ⟨path, pending⟩ := ih
      exact ⟨path, pending.build source⟩
  | reset reached ih =>
      obtain ⟨path, pending⟩ := ih
      exact ⟨[], pending.reset⟩
  | run reached runs ih =>
      obtain ⟨path, pending⟩ := ih
      rcases Session.run?_resets runs with rfl | ⟨machine, rfl⟩
      · exact ⟨path, pending⟩
      · exact ⟨[], pending.run machine⟩
  | perform reached performs ih =>
      obtain ⟨path, pending⟩ := ih
      exact pending.performOn? performs
  | evaluate reached evaluates ih =>
      obtain ⟨path, pending⟩ := ih
      exact pending.evaluate? evaluates
  | takeEmitted reached ih =>
      obtain ⟨path, pending⟩ := ih
      exact ⟨path, pending.takeEmitted⟩

theorem Pending.namesCalls {path : List Activity} {session : Session}
    (pending : Pending path session) : Moment.NamesCalls ⟨path, session.machine⟩ := by
  induction pending with
  | start limits => exact .of_fresh rfl
  | build pending source ih =>
      unfold Session.build
      split
      · exact ih
      · exact ih.of_keepsCalls (.of_stack_eq rfl)
  | reset pending ih => exact .of_fresh rfl
  | run pending machine ih => exact .of_fresh rfl
  | performed pending ends ih =>
      exact Watching.Keeps.of_moment?
        ((namesCalls_invariant.evaluation _ _).2.1 _ trivial _ _ ih) ends
  | evaluated pending ends ih =>
      exact Watching.Keeps.of_moment? ((namesCalls_invariant.evaluation _ _).1 _ _ _ ih) ends
  | takeEmitted pending ih => exact ih.of_keepsCalls (.of_stack_eq rfl)

end Session

/-! ## Main statement -/

/-- A run that fails reports the failure and then its open frames, the innermost first.  The
innermost frame is reported at the place of the failure, and the lowest one as the frame of
the program.  Every other frame is reported under the name that a call refers to which is in
progress, and the frame below it at the place of that call: the innermost of the nodes that
began while that frame was on top. -/
theorem stack_traces_tell_the_calls {session after : Session} {fuel : Nat} {error : RuntimeError}
    (reached : session.Reached) (fails : session.run? fuel = some (.error error, after)) :
    ∃ path program moment,
      Session.Pending path session ∧ session.program = some program ∧
      (Watching.execution session.limits.maxDepth fuel program path session.machine).ending =
        .halted (.failed error.cause) moment ∧
      after.machine.emitted.toList = moment.machine.emitted.toList ++
        .event (.error error.cause.kind error.span error.cause.arguments "") ::
          moment.machine.stack.frames.map (fun frame =>
            .event (.error .stackTrace frame.span [.text frame.name] "")) ∧
      moment.machine.current.span = error.span ∧
      (moment.machine.stack.frame? 0).map Frame.name = some Machine.mainName ∧
      ∀ height < moment.machine.stack.height, ∃ activity span name arguments,
        moment.caller? height = some activity ∧
        activity.node = .expression (.call span name arguments) ∧
        (moment.machine.stack.frame? height).map Frame.span = some span ∧
        (moment.machine.stack.frame? (height + 1)).map Frame.name = some name := by
  obtain ⟨path, pending⟩ := reached.exists_pending
  rcases Option.eq_none_or_eq_some session.program with unbuilt | ⟨program, built⟩
  · rw [Session.run?, unbuilt] at fails
    cases fails
  rcases Session.run?_cases built fails with ⟨_, -, contradiction, -⟩ |
    ⟨cause, machine, halts, isError, rfl⟩
  · cases contradiction
  obtain rfl := Except.error.inj isError
  have watches := congrFun (Watching.action_execution session.limits.maxDepth fuel program path)
    session.machine
  rw [halts] at watches
  obtain ⟨moment, ends, rfl⟩ := Conclusion.exists_halted watches
  have keeps := (namesCalls_invariant.evaluation session.limits.maxDepth fuel).2.1 program trivial
    path session.machine pending.namesCalls
  have named := keeps.halted _ moment ends
  refine ⟨path, program, moment, pending, built, ends, ?_, rfl, named.program, named.calls⟩
  change (moment.machine.unwind cause).emitted.toList = _
  rw [Machine.unwind_eq, Array.toList_append]
  rfl

/-- A call that is an argument of another one has ended before the other opens its frame,
and leaves no mark in the trace. -/
theorem stack_trace_passes_over_argument_calls :
    let source := "FUNCTION t RETURNS FACT TRUE; FUNCTION f WITH FACT a RETURNS FACT x; " ++
      "FUNCTION g RETURNS FACT CALL f WITH CALL t NOW NOW; CALL g NOW;"
    let session := ((Session.start .standard).build source).2
    ∃ error after path program moment,
      session.run? 40 = some (.error error, after) ∧
      after.machine.emitted.events =
        [.warning .missingReturn ⟨1, 25⟩ [.text "t"],
          .error .undefinedVariable ⟨1, 67⟩ [.text "x"] "",
          .error .stackTrace ⟨1, 67⟩ [.text "f"] "",
          .error .stackTrace ⟨1, 94⟩ [.text "g"] "",
          .error .stackTrace ⟨1, 122⟩ [.text "Main Program"] ""] ∧
      (Watching.execution session.limits.maxDepth 40 program path session.machine).ending =
        .halted (.failed error.cause) moment ∧
      moment.machine.current.span = error.span ∧
      ∀ height < moment.machine.stack.height, ∃ activity span name arguments,
        moment.caller? height = some activity ∧
        activity.node = .expression (.call span name arguments) ∧
        (moment.machine.stack.frame? height).map Frame.span = some span ∧
        (moment.machine.stack.frame? (height + 1)).map Frame.name = some name := by
  intro source session
  have reached : session.Reached := .build (.start .standard) source
  have ends : (session.run? 40).map (fun ended => (ended.1.isOk, ended.2.machine.emitted.events)) =
      some (false,
        [.warning .missingReturn ⟨1, 25⟩ [.text "t"],
          .error .undefinedVariable ⟨1, 67⟩ [.text "x"] "",
          .error .stackTrace ⟨1, 67⟩ [.text "f"] "",
          .error .stackTrace ⟨1, 94⟩ [.text "g"] "",
          .error .stackTrace ⟨1, 122⟩ [.text "Main Program"] ""]) := by
    decide +kernel
  clear_value session
  obtain ⟨⟨result, after⟩, runs, same⟩ := Option.map_eq_some_iff.mp ends
  obtain ⟨isFailure, events⟩ := Prod.mk.inj same
  cases result with
  | ok _ => cases isFailure
  | error error =>
      obtain ⟨path, program, moment, -, -, halts, -, place, -, calls⟩ :=
        stack_traces_tell_the_calls reached runs
      exact ⟨error, after, path, program, moment, runs, events, halts, place, calls⟩

end Plainspoken
