import Plainspoken.CommandLine.Service
import Plainspoken.Proofs.RoutineImmunity

/-!
# What a run emits

While a program runs it emits lines, and warnings about functions that end without
saying their result, and nothing else.  What has been emitted before makes no difference
to what it does.  Both are properties of the single changes of the machine that nodes
make, and they are carried from there to whole evaluations.

An error is reported only where a source cannot be built, or where a run has failed: once,
and then together with the frames that were open.
-/

namespace Plainspoken

open Stepping Evaluation

/-! ## Emissions of a running program -/

/-- What a program emits while it runs. -/
inductive Emission.Ordinary : Emission → Prop where
  | line (text : String) : Ordinary (.line text)
  | missingReturn (span : Span) (arguments : List Argument) :
      Ordinary (.event (.warning .missingReturn span arguments))

/-- The second machine has emitted more than the first, and all of it is ordinary. -/
def Machine.Emits (machine after : Machine) : Prop :=
  ∃ added : Transcript, after.emitted = machine.emitted ++ added ∧
    ∀ emission ∈ added, emission.Ordinary

namespace Machine.Emits

theorem of_emitted_eq {machine after : Machine} (same : after.emitted = machine.emitted) :
    machine.Emits after :=
  ⟨#[], by simp [same], by simp⟩

theorem trans {first second third : Machine} (firstSecond : first.Emits second)
    (secondThird : second.Emits third) : first.Emits third := by
  obtain ⟨added, emitted, ordinary⟩ := firstSecond
  obtain ⟨later, laterEmitted, laterOrdinary⟩ := secondThird
  refine ⟨added ++ later, ?_, ?_⟩
  · rw [laterEmitted, emitted, Array.append_assoc]
  · intro emission member
    rcases Array.mem_append.mp member with isAdded | isLater
    · exact ordinary emission isAdded
    · exact laterOrdinary emission isLater

theorem emit (machine : Machine) {emission : Emission} (ordinary : emission.Ordinary) :
    machine.Emits (machine.emit emission) := by
  refine ⟨#[emission], rfl, ?_⟩
  intro other member
  rw [Array.mem_singleton.mp member]
  exact ordinary

/-- All that was emitted since the machine was fresh is ordinary. -/
theorem ordinary {after : Machine} (emits : Machine.initial.Emits after) :
    ∀ emission ∈ after.emitted, emission.Ordinary := by
  obtain ⟨added, emitted, ordinary⟩ := emits
  rw [emitted]
  change ∀ emission ∈ #[] ++ added, emission.Ordinary
  rw [Array.empty_append]
  exact ordinary

theorem of_change {change : Machine → Machine} (changes : Machine.Change change)
    (machine : Machine) : machine.Emits (change machine) := by
  cases changes with
  | linePrinted text => exact emit machine (.line text)
  | returnMissed span name => exact emit machine (.missingReturn span _)
  | flagsRestored wasSet flags =>
      cases wasSet with
      | true => exact of_emitted_eq rfl
      | false => exact of_emitted_eq rfl
  | _ => exact of_emitted_eq rfl

end Machine.Emits

/-! ## Earlier emissions -/

/-- The machine with something emitted before all else. -/
def Machine.preceded (machine : Machine) (earlier : Transcript) : Machine :=
  { machine with emitted := earlier ++ machine.emitted }

namespace Machine

theorem view_preceded {α : Type} {view : Machine → α} (ignores : IgnoresEmitted view)
    (machine : Machine) (earlier : Transcript) :
    view (machine.preceded earlier) = view machine :=
  ignores machine _

theorem preceded_emit (machine : Machine) (earlier : Transcript) (emission : Emission) :
    (machine.preceded earlier).emit emission = (machine.emit emission).preceded earlier := by
  simp [emit, preceded]

theorem Change.preceded {change : Machine → Machine} (changes : Change change)
    (machine : Machine) (earlier : Transcript) :
    change (machine.preceded earlier) = (change machine).preceded earlier := by
  cases changes with
  | linePrinted text => exact machine.preceded_emit earlier _
  | returnMissed span name => exact machine.preceded_emit earlier _
  | flagsRestored wasSet flags =>
      cases wasSet with
      | true => rfl
      | false => rfl
  | _ => rfl

end Machine

/-- The second action does on a machine with earlier emissions what the first one does
without them, and what the first one emits is ordinary. -/
structure Action.Reports {α : Type} (action action' : Action α) : Prop where
  preceded (machine : Machine) (earlier : Transcript) :
    action' (machine.preceded earlier) = (action machine).mapMachine (·.preceded earlier)
  emits (machine : Machine) : (action machine).Leaves machine.Emits

namespace Action.Reports

variable {α β : Type}

theorem pure (result : α) : Reports (Pure.pure result : Action α) (Pure.pure result) :=
  ⟨fun _ _ => rfl, fun _ => .of_emitted_eq rfl⟩

theorem halt (reason : Halt) :
    Reports (Stepping.halt reason : Action α) (Stepping.halt reason) :=
  ⟨fun _ _ => rfl, fun _ => .of_emitted_eq rfl⟩

theorem exhaust : Reports (Stepping.exhaust : Action α) Stepping.exhaust :=
  ⟨fun _ _ => rfl, fun _ => trivial⟩

theorem ofExcept (computed : Except RuntimeCause α) :
    Reports (Stepping.ofExcept computed : Action α) (Stepping.ofExcept computed) := by
  cases computed with
  | ok result => exact .pure result
  | error cause => exact .halt (.failed cause)

theorem read {view : Machine → α} (ignores : Machine.IgnoresEmitted view) :
    Reports (Stepping.read view : Action α) (Stepping.read view) where
  preceded machine earlier := by
    change Outcome.finished (view (machine.preceded earlier)) _ = .finished (view machine) _
    rw [machine.view_preceded ignores]
  emits _ := .of_emitted_eq rfl

/-- A change that does not depend on earlier emissions. -/
theorem update {change : Machine → Machine}
    (preceded : ∀ (machine : Machine) earlier,
      change (machine.preceded earlier) = (change machine).preceded earlier)
    (emits : ∀ machine : Machine, machine.Emits (change machine)) :
    Reports (Stepping.update change : Action Unit) (Stepping.update change) where
  preceded machine earlier := by
    change Outcome.finished () (change (machine.preceded earlier)) = .finished () _
    rw [preceded]
  emits := emits

theorem modifyCurrent (change : Frame → Frame) :
    Reports (Stepping.update (·.modifyCurrent change) : Action Unit)
      (Stepping.update (·.modifyCurrent change)) :=
  update (fun _ _ => rfl) fun _ => .of_emitted_eq rfl

theorem bind {first first' : Action α} {second second' : α → Action β}
    (firstReports : first.Reports first')
    (secondReports : ∀ result, (second result).Reports (second' result)) :
    Reports (first >>= second) (first' >>= second') where
  preceded machine earlier := by
    change andThen first' second' _ = (andThen first second machine).mapMachine _
    unfold andThen
    rw [firstReports.preceded]
    cases first machine with
    | finished result between => exact (secondReports result).preceded between earlier
    | halted reason after => rfl
    | exhausted => rfl
  emits machine := by
    have firstEmits := firstReports.emits machine
    change (andThen first second machine).Leaves _
    unfold andThen
    cases ended : first machine with
    | finished result between =>
        rw [ended] at firstEmits
        have secondEmits := (secondReports result).emits between
        exact secondEmits.mono fun _ later => Machine.Emits.trans firstEmits later
    | halted reason after =>
        rw [ended] at firstEmits
        exact firstEmits
    | exhausted => trivial

theorem andFinally {action action' : Action α} {change : Machine → Machine}
    (changes : Machine.Change change) (reports : action.Reports action') :
    Reports (Stepping.andFinally action change) (Stepping.andFinally action' change) where
  preceded machine earlier := by
    change (action' _).mapMachine change = ((action machine).mapMachine change).mapMachine _
    rw [reports.preceded]
    cases action machine with
    | finished result after =>
        exact congrArg (Outcome.finished result) (changes.preceded after earlier)
    | halted reason after =>
        exact congrArg (Outcome.halted reason) (changes.preceded after earlier)
    | exhausted => rfl
  emits machine := by
    change ((action machine).mapMachine change).Leaves _
    rw [Outcome.leaves_mapMachine]
    exact (reports.emits machine).mono fun after before => before.trans (.of_change changes after)

end Action.Reports

/-- Evaluation does not look at what has been emitted, and emits what is ordinary. -/
def reporting : Simulation Action Action where
  Related := Action.Reports
  Covers _ := True
  parts _ _ := trivial
  pure := .pure
  bind := .bind
  halt := .halt
  read := .read
  update changes := .update changes.preceded (.of_change changes)
  andFinally := .andFinally
  addVariable binding := by
    refine .bind (.read fun _ _ => rfl) fun declared => ?_
    cases declared with
    | ok frame => exact .modifyCurrent _
    | error cause => exact .halt (.failed cause)
  declareCallable _ :=
    .bind (.read fun _ _ => rfl) fun _ => .bind (.ofExcept _) fun _ =>
      .bind (.read fun _ _ => rfl) fun _ => .bind (.modifyCurrent _) fun _ => .ofExcept _
  resolving _ _ _ _ related :=
    .bind (.read fun _ _ => rfl) fun _ => .bind (.ofExcept _) fun found =>
      related found fun _ _ => trivial

private theorem reporting_nests (maxDepth : Nat) : reporting.Nests maxDepth maxDepth where
  enter span := by
    refine .bind (.update (fun _ _ => rfl) fun _ => .of_emitted_eq rfl) fun _ =>
      .bind (.read fun _ _ => rfl) fun tooDeep => ?_
    split
    · exact .halt _
    · exact .pure _
  leave := .update (fun _ _ => rfl) fun _ => .of_emitted_eq rfl
  exhaust := .exhaust

theorem execute_reports (maxDepth fuel : Nat) (statement : Statement) :
    Action.Reports (execute maxDepth fuel statement) (execute maxDepth fuel statement) :=
  ((reporting_nests maxDepth).evaluation fuel).2.1 statement trivial

/-! ## Failures -/

namespace Machine

/-- What is reported when a run fails: the failure, and the frames that are open. -/
def failureReport (machine : Machine) (cause : RuntimeCause) : List Emission :=
  .event (.error cause.kind machine.current.span cause.arguments "") ::
    machine.stack.frames.map traceLine

theorem foldl_emit_traceLine (frames : List Frame) (machine : Machine) :
    frames.foldl (fun machine frame => machine.emit (traceLine frame)) machine =
      { machine with emitted := machine.emitted ++ (frames.map traceLine).toArray } := by
  induction frames generalizing machine with
  | nil => simp
  | cons frame frames ih =>
      rw [List.foldl_cons, ih]
      simp [emit]

theorem unwind_eq (machine : Machine) (cause : RuntimeCause) :
    machine.unwind cause =
      { machine with emitted := machine.emitted ++ (machine.failureReport cause).toArray } := by
  rw [unwind, reportFrames, foldl_emit_traceLine]
  simp [reportRuntimeError, emit, locate, failureReport]

theorem name_globalFrame_modifyCurrent (machine : Machine) {change : Frame → Frame}
    (kept : (change machine.current).name = machine.current.name) :
    (machine.modifyCurrent change).stack.globalFrame.name = machine.stack.globalFrame.name := by
  rw [modifyCurrent, CallStack.globalFrame_modifyCurrent]
  split
  · next lowest =>
    rw [CallStack.globalFrame_of_height_eq_zero lowest]
    exact kept
  · rfl

end Machine

/-- The frame of the program keeps its name whatever is evaluated. -/
theorem mainName_maintained : Machine.Maintained fun machine after =>
    after.stack.globalFrame.name = machine.stack.globalFrame.name where
  refl _ := rfl
  trans firstSecond secondThird := secondThird.trans firstSecond
  noted _ _ _ _ := rfl
  marked machine _ := machine.name_globalFrame_modifyCurrent rfl
  flagsSet machine _ := machine.name_globalFrame_modifyCurrent rfl
  flagsUnset machine _ := machine.name_globalFrame_modifyCurrent rfl
  scopeOpened machine _ _ := machine.name_globalFrame_modifyCurrent rfl
  scopeClosed {machine after scope} _ inside := by
    rw [Machine.popScope, after.name_globalFrame_modifyCurrent rfl, inside]
    exact machine.name_globalFrame_modifyCurrent rfl
  frameOpened machine frame _ := congrArg Frame.name (machine.stack.globalFrame_push frame)
  frameClosed _ inside := by
    rw [Machine.popFrame, CallStack.globalFrame_pop, inside, Machine.pushFrame,
      CallStack.globalFrame_push]
  stored machine site _ _ _ _ := (CallStack.Alike.store machine site _).globalFrame.name
  variableDeclared machine _ _ _ declares :=
    machine.name_globalFrame_modifyCurrent (Frame.Extended.declareVariable declares).name
  callableDeclared machine declared _ :=
    machine.name_globalFrame_modifyCurrent
      (Frame.Extended.declareCallable machine.current declared).name

theorem mainName_invariant :
    Machine.Invariant fun machine => machine.stack.globalFrame.name = Machine.mainName :=
  mainName_maintained.invariant rfl fun _ _ same named => same.trans named

theorem CallStack.getLast?_frames (stack : CallStack) :
    stack.frames.getLast? = some stack.globalFrame := by
  rw [frames, List.getLast?_cons, globalFrame, List.getLastD_eq_getLast?]

/-! ## Reports -/

/-- The kinds of failures to split a source into tokens. -/
def ErrorKind.lexical : List ErrorKind :=
  [.unknownToken, .numberOverflow, .numberNotADecimal, .numberNotInBase, .numberUnknownBase,
    .textTooBig, .textSuddenEnd, .commentTooBig, .commentSuddenEnd, .identifierTooBig,
    .unknownEscape]

/-- The kinds of failures to read tokens as a program. -/
def ErrorKind.grammatical : List ErrorKind :=
  [.expectedToken, .expectedSymbol, .duplicateParam]

theorem BuildError.kind_mem (error : BuildError) :
    error.kind ∈ ErrorKind.lexical ∨ error.kind ∈ ErrorKind.grammatical := by
  cases error with
  | lexical error =>
      left
      change error.cause.kind ∈ _
      unfold LexicalCause.kind
      split <;> decide
  | grammar error =>
      right
      change error.cause.kind ∈ _
      unfold GrammarCause.kind
      split <;> decide

private theorem RuntimeCause.kind_ne_stackTrace (cause : RuntimeCause) :
    cause.kind ≠ .stackTrace := by
  unfold kind
  split <;> decide

private theorem Transcript.mem_errorKinds {transcript : Transcript} {kind : ErrorKind} :
    kind ∈ transcript.errorKinds ↔ ∃ span arguments buffered,
      Emission.event (.error kind span arguments buffered) ∈ transcript := by
  simp only [errorKinds, events, List.mem_filterMap, Array.mem_toList_iff]
  constructor
  · rintro ⟨event, ⟨emission, member, isEvent⟩, isError⟩
    cases emission with
    | line text => cases isEvent
    | event reported =>
        cases isEvent
        cases event with
        | error other span arguments buffered =>
            cases isError
            exact ⟨span, arguments, buffered, member⟩
        | log other span arguments => cases isError
        | warning other span arguments => cases isError
  · rintro ⟨span, arguments, buffered, member⟩
    exact ⟨_, ⟨_, member, rfl⟩, rfl⟩

private theorem Transcript.errorKinds_eq_nil_of_ordinary {transcript : Transcript}
    (ordinary : ∀ emission ∈ transcript, emission.Ordinary) : transcript.errorKinds = [] := by
  rw [List.eq_nil_iff_forall_not_mem]
  intro kind member
  obtain ⟨span, arguments, buffered, reported⟩ := mem_errorKinds.mp member
  cases ordinary _ reported

/-! ## Main statement -/

/-- How building and running a source can end, whether that is a success, and what has
been emitted by then. -/
inductive Session.Ended (limits : Limits) (fuel : Nat) (source : String) (session : Session) :
    Bool → Prop where
  /-- The source cannot be built, and that is all that is emitted. -/
  | unbuilt {error : BuildError} (refused : parse limits source = .error error)
      (kind : error.kind ∈ ErrorKind.lexical ∨ error.kind ∈ ErrorKind.grammatical)
      (emitted : session.machine.emitted =
        #[.event (.error error.kind error.span error.arguments error.buffered)]) :
      Ended limits fuel source session false
  /-- The program ends or quits.  It has emitted what programs emit while they run. -/
  | completed {program : Statement} {machine : Machine}
      (built : parse limits source = .ok program)
      (ends : (∃ flow, (execute limits.maxDepth fuel program : Action Flow) .initial =
          .finished flow machine) ∨
        (execute limits.maxDepth fuel program : Action Flow) .initial = .halted .quit machine)
      (ordinary : ∀ emission ∈ session.machine.emitted, emission.Ordinary) :
      Ended limits fuel source session true
  /-- The program fails.  The error is reported after what the program has emitted, and
  then the frames that it left open, the innermost first and that of the program last. -/
  | failed {program : Statement} {error : RuntimeError} {machine : Machine}
      {transcript : Transcript} (built : parse limits source = .ok program)
      (fails : (execute limits.maxDepth fuel program : Action Flow) .initial =
        .halted (.failed error.cause) machine)
      (returned : Session.run? fuel ⟨limits, some program, .initial⟩ =
        some (.error error, session))
      (kind : error.cause.kind ≠ .stackTrace)
      (ordinary : ∀ emission ∈ transcript, emission.Ordinary)
      (emitted : session.machine.emitted.toList = transcript.toList ++
        .event (.error error.cause.kind error.span error.cause.arguments "") ::
          machine.stack.frames.map fun frame =>
            .event (.error .stackTrace frame.span [.text frame.name] ""))
      (outermost : machine.stack.frames.getLast?.map Frame.name = some "Main Program") :
      Ended limits fuel source session false

theorem Session.Ended.success_iff {limits : Limits} {fuel : Nat} {source : String}
    {session : Session} {success : Bool}
    (ended : Session.Ended limits fuel source session success) :
    success = true ↔ session.machine.emitted.errorKinds = [] := by
  have reported {kind : ErrorKind} {span : Span} {arguments : List Argument} {buffered : String}
      (member : Emission.event (.error kind span arguments buffered) ∈ session.machine.emitted) :
      session.machine.emitted.errorKinds ≠ [] :=
    List.ne_nil_of_mem (Transcript.mem_errorKinds.mpr ⟨span, arguments, buffered, member⟩)
  cases ended with
  | unbuilt refused kind emitted =>
      have some := reported (by rw [emitted]; exact Array.mem_singleton.mpr rfl)
      simp [some]
  | completed built ends ordinary =>
      simp [Transcript.errorKinds_eq_nil_of_ordinary ordinary]
  | failed built fails returned kind ordinary emitted outermost =>
      have some := reported (by
        rw [← Array.mem_toList_iff, emitted]
        exact List.mem_append_right _ List.mem_cons_self)
      simp [some]

private theorem Session.ended_of_buildAndRun? {limits : Limits} {fuel : Nat} {source : String}
    {success : Bool} {session : Session}
    (ends : (Session.start limits).buildAndRun? fuel source = some (success, session)) :
    Session.Ended limits fuel source session success := by
  unfold Session.buildAndRun? Session.build at ends
  cases parsed : parse limits source with
  | error error =>
      rw [Session.start, parsed] at ends
      cases ends
      exact .unbuilt parsed error.kind_mem rfl
  | ok program =>
      rw [Session.start, parsed] at ends
      obtain ⟨⟨result, after⟩, runs, same⟩ := Option.map_eq_some_iff.mp ends
      cases same
      have emits := (execute_reports limits.maxDepth fuel program).emits .initial
      rcases Session.run?_cases rfl runs with
        ⟨machine, completes, rfl, rfl⟩ | ⟨cause, machine, fails, rfl, rfl⟩
      · have left : Machine.initial.Emits machine := by
          rcases completes with ⟨flow, finished⟩ | quits
          · rw [finished] at emits
            exact emits
          · rw [quits] at emits
            exact emits
        refine .completed parsed completes ?_
        exact left.ordinary
      · rw [fails] at emits
        have ordinary := Machine.Emits.ordinary emits
        have named := mainName_invariant.execute_leaves limits.maxDepth fuel program
          mainName_invariant.initial
        rw [fails] at named
        have outermost : machine.stack.frames.getLast?.map Frame.name = some Machine.mainName := by
          rw [CallStack.getLast?_frames, Option.map_some, named]
        refine .failed parsed ?_ runs cause.kind_ne_stackTrace ordinary ?_ outermost
        · exact fails
        · change (machine.unwind cause).emitted.toList = _
          rw [Machine.unwind_eq, Array.toList_append]
          rfl

/-- Building and running a source ends in one of three ways, each with its own emissions:
the source is refused, the program is completed, or it fails.  It is a success if and only
if no error has been reported, and so it is on the command line. -/
theorem runs_report_errors_and_open_frames {limits : Limits} {fuel : Nat} {source : String}
    {success : Bool} {session : Session}
    (ends : (Session.start limits).buildAndRun? fuel source = some (success, session)) :
    Session.Ended limits fuel source session success ∧
    (success = true ↔ session.machine.emitted.errorKinds = []) ∧
    (∀ {m : Type → Type} [Monad m] (surroundings : Surroundings m) (catalog : Catalog),
      ∃ ending : Ending,
        CommandLine.runSource surroundings fuel catalog limits source = (do
          CommandLine.writeAll surroundings
            ((Console.mk catalog (some source)).chunks session.machine.emitted)
          return some ending) ∧
        (ending.status = 0 ↔ session.machine.emitted.errorKinds = [])) := by
  have ended := Session.ended_of_buildAndRun? ends
  have succeeds := ended.success_iff
  refine ⟨ended, succeeds, fun surroundings catalog => ?_⟩
  refine ⟨if success then .succeeded else .failed, ?_, ?_⟩
  · unfold CommandLine.runSource
    generalize (Session.start limits).buildAndRun? fuel source = outcome at ends ⊢
    cases ends
    rfl
  · rw [← succeeds]
    cases success with
    | true => decide
    | false => decide

/-- A call ends without saying its result, and the next one fails in its own frame. -/
theorem failing_call_is_reported_after_warning :
    let source := "FUNCTION g RETURNS FACT TRUE; FUNCTION f RETURNS FACT x; CALL g NOW; CALL f NOW;"
    ∃ session, (Session.start .standard).buildAndRun? 30 source = some (false, session) ∧
      session.machine.emitted.events =
        [.warning .missingReturn ⟨1, 25⟩ [.text "g"],
          .error .undefinedVariable ⟨1, 55⟩ [.text "x"] "",
          .error .stackTrace ⟨1, 55⟩ [.text "f"] "",
          .error .stackTrace ⟨1, 70⟩ [.text "Main Program"] ""] ∧
      Session.Ended .standard 30 source session false ∧
      session.machine.emitted.errorKinds ≠ [] := by
  intro source
  have ends : ((Session.start .standard).buildAndRun? 30 source).map
      (fun ended => (ended.1, ended.2.machine.emitted.events)) =
        some (false, [.warning .missingReturn ⟨1, 25⟩ [.text "g"],
          .error .undefinedVariable ⟨1, 55⟩ [.text "x"] "",
          .error .stackTrace ⟨1, 55⟩ [.text "f"] "",
          .error .stackTrace ⟨1, 70⟩ [.text "Main Program"] ""]) := by
    decide +kernel
  obtain ⟨⟨success, session⟩, runs, same⟩ := Option.map_eq_some_iff.mp ends
  obtain ⟨rfl, events⟩ := Prod.mk.inj same
  obtain ⟨ended, succeeds, -⟩ := runs_report_errors_and_open_frames runs
  exact ⟨session, runs, events, ended, fun none => by cases succeeds.mpr none⟩

end Plainspoken
