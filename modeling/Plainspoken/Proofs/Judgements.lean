import Plainspoken.Proofs.Effects
import Plainspoken.Proofs.Tracing

/-!
# Judgements about evaluations

An evaluation changes the machine in a few ways only: it takes notes, sets flags,
opens and closes scopes and frames, stores values that were cast to the type of
their variable, and adds declarations.

A judgement says something of a traced action that starts on a given machine, in a
way that goes with every one of these changes and with doing one thing after
another.  It then holds of every evaluation on every machine.  What is known of a
change goes into the rules of the judgement; above all that a value is only stored
where a name that is not reserved leads, to a variable that may be assigned.
-/

namespace Plainspoken

open Stepping Evaluation

inductive Scope.Opened : Scope → Prop where
  | block : Opened .empty
  | pipe (span : Span) (value : Value) :
      Opened (Scope.empty.insertVariable (pipeVariable span value))
  | subject (span : Span) (value : Value) : Opened (subjectScope span value)

/-- The variables that are declared by a statement. -/
inductive Variable.Declared : Variable → Prop where
  | holding (declarator : Declarator) (value : Value)
      (free : isReservedName declarator.name = false) :
      Declared (.holding declarator (value.cast declarator.type))
  | uninitialized (declarator : Declarator) (free : isReservedName declarator.name = false) :
      Declared (.uninitialized declarator)

/-- The variables that parameters become. -/
inductive Variable.Bound : Variable → Prop where
  | parameter (parameter : Declarator) (value : Value) (site : Option Site) :
      Bound (bindParameter parameter (value.cast parameter.type) site)

inductive Frame.Opened : Frame → Prop where
  | function (signature : FunctionSignature) (span : Span) {parameters : List Variable}
      (bound : ∀ binding ∈ parameters, binding.Bound) :
      Opened (functionFrame signature span parameters)
  | pattern (signature : PatternSignature) (span : Span) (value : Value)
      (site : Option Site) :
      Opened (patternFrame signature span (value.cast signature.parameter.type) site)

/-- Where an assignment stores its value: a name that is not reserved leads to the site,
and a variable lives there that may be assigned. -/
structure Machine.Assigns (machine : Machine) (site : Site) (binding : Variable) : Prop where
  named : ∃ name declared, isReservedName name = false ∧
    machine.stack.find? name = some declared ∧ machine.stack.owner declared = site
  found : machine.stack.binding? site = some binding
  assignable : binding.declarator.isMutable = true

/-- The changes of a machine but for scopes and frames. -/
inductive Machine.Adjusts (machine : Machine) : Machine → Prop where
  /-- Levels are counted, a value is remembered and something is emitted. -/
  | noted (depth : Nat) (lastValue : Value) (emitted : Transcript) :
      Adjusts machine ⟨machine.stack, depth, lastValue, emitted⟩
  | marked (span : Span) : Adjusts machine (machine.mark span)
  | flagsSet (flags : Flags) : Adjusts machine (machine.setFlags flags)
  | flagsUnset (flags : Flags) : Adjusts machine (machine.unsetFlags flags)
  /-- A value is stored, cast to the type of the variable. -/
  | stored {site : Site} {binding : Variable} (assigns : machine.Assigns site binding)
      (value : Value) :
      Adjusts machine (machine.store site (value.cast binding.declarator.type))
  | variableDeclared {binding : Variable} {frame : Frame} (fresh : binding.Declared)
      (declares : machine.current.declareVariable binding = .ok frame) :
      Adjusts machine (machine.modifyCurrent fun _ => frame)
  /-- The frame that a declaration leaves is kept also where it fails. -/
  | callableDeclared {declared : Callable}
      (free : machine.stack.globalFrame.checkRoutine declared.name declared.arity = .ok ()) :
      Adjusts machine
        (machine.modifyCurrent fun _ => (machine.current.declareCallable declared).2)

/-- What can be said of traced actions, each starting on a machine, that goes with
every step. -/
structure Tracing.Judgement where
  Holds {α : Type} : Tracing α → Machine → Prop
  pure {α : Type} (result : α) (machine : Machine) :
    Holds (Pure.pure result : Tracing α) machine
  read {α : Type} (view : Machine → α) (machine : Machine) :
    Holds (Stepping.read view : Tracing α) machine
  halt {α : Type} (reason : Halt) (machine : Machine) :
    Holds (Stepping.halt reason : Tracing α) machine
  exhaust {α : Type} (machine : Machine) : Holds (Stepping.exhaust : Tracing α) machine
  /-- What is done second starts on the machine that the first action left. -/
  bindAt {α β : Type} {first : Tracing α} {second : α → Tracing β} {machine : Machine}
    (firstHolds : Holds first machine)
    (secondHolds : ∀ result between, first.action machine = .finished result between →
      Holds (second result) between) :
    Holds (first >>= second) machine
  updateAt {machine : Machine} {change : Machine → Machine}
    (adjusts : machine.Adjusts (change machine)) :
    Holds (Stepping.update change : Tracing Unit) machine
  andFinallyAt {α : Type} {traced : Tracing α} {change : Machine → Machine} {machine : Machine}
    (holds : Holds traced machine) (adjusts : ∀ after : Machine, after.Adjusts (change after)) :
    Holds (Stepping.andFinally traced change) machine
  /-- Something is done in a scope of its own, which is closed also when it halts. -/
  inScopeAt {α : Type} {running : Tracing α} {machine : Machine} {scope : Scope}
    (opened : scope.Opened) (runs : Holds running (machine.pushScope scope)) :
    Holds (do
      Stepping.update (·.pushScope scope)
      Stepping.andFinally running (·.popScope)) machine
  /-- Something is done in a frame of its own, which stays open when it halts. -/
  inFrameAt {α β : Type} {running : Tracing α} {machine : Machine} {frame : Frame}
    (opened : frame.Opened) (result : α → β) (runs : Holds running (machine.pushFrame frame)) :
    Holds (do
      Stepping.update (·.pushFrame frame)
      let value ← running
      Stepping.update (·.popFrame)
      return result value) machine

namespace Tracing

private theorem ok_of_finished_ofExcept {α : Type} {computed : Except RuntimeCause α}
    {machine after : Machine} {result : α}
    (finishes : (ofExcept computed : Tracing α).action machine = .finished result after) :
    computed = .ok result ∧ machine = after := by
  cases computed with
  | ok value =>
      cases finishes
      exact ⟨rfl, rfl⟩
  | error cause => cases finishes

/-- The judgement holds of the action on every machine. -/
def Satisfies {α : Type} (traced : Tracing α) (judgement : Judgement) : Prop :=
  ∀ machine, judgement.Holds traced machine

namespace Judgement

variable (judgement : Judgement) {α β : Type}

theorem fail (cause : RuntimeCause) : (Stepping.fail cause : Tracing α).Satisfies judgement :=
  judgement.halt (.failed cause)

theorem bind {first : Tracing α} {second : α → Tracing β}
    (firstHolds : first.Satisfies judgement)
    (secondHolds : ∀ result, (second result).Satisfies judgement) :
    (first >>= second).Satisfies judgement :=
  fun machine => judgement.bindAt (firstHolds machine) fun result between _ =>
    secondHolds result between

theorem update {change : Machine → Machine}
    (adjusts : ∀ machine : Machine, machine.Adjusts (change machine)) :
    (Stepping.update change : Tracing Unit).Satisfies judgement :=
  fun machine => judgement.updateAt (adjusts machine)

theorem andFinally {traced : Tracing α} {change : Machine → Machine}
    (holds : traced.Satisfies judgement)
    (adjusts : ∀ machine : Machine, machine.Adjusts (change machine)) :
    (Stepping.andFinally traced change).Satisfies judgement :=
  fun machine => judgement.andFinallyAt (holds machine) adjusts

theorem ofExcept (computed : Except RuntimeCause α) :
    (Stepping.ofExcept computed : Tracing α).Satisfies judgement := by
  cases computed with
  | ok result => exact judgement.pure result
  | error cause => exact judgement.fail cause

theorem ofOption (cause : RuntimeCause) (found : Option α) :
    (Stepping.ofOption cause found : Tracing α).Satisfies judgement := by
  cases found with
  | some result => exact judgement.pure result
  | none => exact judgement.fail cause

theorem valueOf (name : String) :
    (Stepping.valueOf name : Tracing Value).Satisfies judgement :=
  judgement.bind (judgement.read _) fun computed => judgement.ofExcept computed

theorem emit (emission : Emission) :
    (Stepping.update (·.emit emission) : Tracing Unit).Satisfies judgement :=
  judgement.update fun _ => .noted _ _ _

theorem enter (maxDepth : Nat) (span : Span) :
    (Stepping.enter maxDepth span : Tracing Unit).Satisfies judgement := by
  refine judgement.bind (judgement.update fun _ => .noted _ _ _) fun _ =>
    judgement.bind (judgement.read _) fun tooDeep => ?_
  split
  · exact judgement.fail _
  · exact judgement.pure _

theorem leave : (Stepping.leave : Tracing Unit).Satisfies judgement :=
  judgement.update fun _ => .noted _ _ _

theorem storeAt {machine : Machine} {site : Site} {binding : Variable}
    (assigns : machine.Assigns site binding) (value : Value) :
    judgement.Holds (Stepping.storeAt site (value.cast binding.declarator.type) : Tracing Unit)
      machine := by
  refine judgement.bindAt (judgement.read _ machine) fun lives _ reads => ?_
  cases reads
  have isThere : (machine.stack.binding? site).isSome = true := by
    rw [assigns.found, Option.isSome_some]
  rw [if_pos isThere]
  exact judgement.updateAt (.stored assigns value)

theorem inScope {running : Tracing α} (runs : running.Satisfies judgement) {scope : Scope}
    (opened : scope.Opened) :
    (do
      Stepping.update (·.pushScope scope)
      Stepping.andFinally running (·.popScope) : Tracing α).Satisfies judgement :=
  fun _ => judgement.inScopeAt opened (runs _)

theorem inFrame {running : Tracing α} (runs : running.Satisfies judgement) {frame : Frame}
    (opened : frame.Opened) (span : Span) (result : α → β) :
    (do
      Stepping.update (·.mark span)
      Stepping.update (·.pushFrame frame)
      let value ← running
      Stepping.update (·.popFrame)
      return result value : Tracing β).Satisfies judgement :=
  judgement.bind (judgement.update fun _ => .marked span) fun _ _ =>
    judgement.inFrameAt opened result (runs _)

end Judgement

end Tracing

/-! ## Nodes -/

/-- A variable is still there on a machine that is alike. -/
theorem Machine.Alike.binding?_eq_some {before after : Machine} (alike : before.Alike after)
    {site : Site} {binding : Variable} (found : before.stack.binding? site = some binding) :
    ∃ later, after.stack.binding? site = some later ∧ binding.Alike later := by
  have bindings := alike.stack.binding? site
  rw [found] at bindings
  cases later : after.stack.binding? site with
  | none =>
      rw [later] at bindings
      cases bindings
  | some _ =>
      rw [later] at bindings
      cases bindings with
      | some same => exact ⟨_, rfl, same⟩

/-- What a name leads to is assigned also after an evaluation that left the machine alike. -/
theorem Machine.Alike.assigns {before after : Machine} (alike : before.Alike after)
    {name : String} {site : Site} {binding : Variable} (unreserved : ¬ isReservedName name = true)
    (owned : before.ownerOf? name = some (site, binding))
    (assignable : binding.declarator.isMutable = true) :
    ∃ later, after.Assigns site later ∧ binding.Alike later := by
  unfold Machine.ownerOf? at owned
  simp only [Option.bind_eq_bind, Option.bind_eq_some_iff] at owned
  obtain ⟨declared, named, found, bindingFound, same⟩ := owned
  cases same
  obtain ⟨later, laterFound, sameVariable⟩ := alike.binding?_eq_some bindingFound
  have namedAfter : after.stack.find? name = some declared :=
    (alike.stack.find? name).trans named
  refine ⟨later, ⟨⟨name, declared, by simpa using unreserved, namedAfter, ?_⟩, laterFound, ?_⟩,
    sameVariable⟩
  · exact alike.stack.owner declared
  · rw [sameVariable.declarator]
    exact assignable

/-- Arguments become parameters whatever their evaluation does. -/
theorem bindArguments_bound (evaluate : Expression → Action Value) (arguments : List Expression)
    (parameters : List Declarator) (machine : Machine) :
    (bindArguments evaluate arguments parameters).Ensures machine
      fun bound _ => ∀ binding ∈ bound, binding.Bound := by
  induction arguments generalizing parameters machine with
  | nil =>
      rw [bindArguments, Action.ensures_pure]
      · simp
      · simp
  | cons argument arguments ih =>
      cases parameters with
      | nil =>
          rw [bindArguments, Action.ensures_pure]
          · simp
          · simp
      | cons parameter parameters =>
          simp only [bindArguments, Action.ensures_bind, Action.ensures_read,
            Action.ensures_pure, List.forall_mem_cons]
          intro value between _
          refine (ih parameters between).mono fun rest after bound => ⟨?_, bound⟩
          exact .parameter parameter value (machine.argumentSite? argument)

section Nodes

open Tracing

variable (judgement : Judgement)
  {evaluate : Expression → Tracing Value} {execute : Statement → Tracing Flow}
  (evaluated : ∀ expression, (evaluate expression).Satisfies judgement)
  (executed : ∀ statement, (execute statement).Satisfies judgement)
  (alike : ∀ expression, (evaluate expression).action.Within Machine.Alike)

include evaluated in
theorem usedValue_satisfies (expression : Expression) :
    (usedValue evaluate expression).Satisfies judgement := by
  refine judgement.bind (judgement.read _) fun expected =>
    judgement.bind (judgement.update fun _ => .flagsSet _) fun _ =>
      judgement.andFinally (evaluated expression) fun machine => ?_
  split
  · exact .noted _ _ _
  · exact .flagsUnset _

include evaluated in
theorem condition_satisfies (expression : Expression) :
    (condition evaluate expression).Satisfies judgement :=
  judgement.bind (usedValue_satisfies judgement evaluated expression) fun _ =>
    judgement.ofOption _ _

include evaluated in
theorem pipe_satisfies (first : Expression) (success failure : Option Expression) :
    (pipe evaluate first success failure).Satisfies judgement := by
  have failureSatisfies : (pipeFailure evaluate failure).Satisfies judgement := by
    cases failure with
    | none => exact judgement.pure _
    | some failure => exact evaluated failure
  refine judgement.bind (usedValue_satisfies judgement evaluated first) fun carried =>
    judgement.inScope ?_ (.pipe first.span carried)
  unfold pipeParts
  split
  · exact failureSatisfies
  · cases success with
    | none => exact judgement.pure _
    | some success =>
        refine judgement.bind (evaluated success) fun value => ?_
        split
        · exact failureSatisfies
        · exact judgement.pure _

include evaluated alike in
/-- The storage is found before the value is evaluated, and is still what the name leads
to, with the same declarator, when the value is stored. -/
theorem assign_satisfies (target value : Expression) :
    (assign evaluate target value).Satisfies judgement := by
  unfold assign
  split
  · exact judgement.fail _
  · next name _ =>
    split
    · exact judgement.fail _
    · next unreserved =>
      intro machine
      refine judgement.bindAt (judgement.read _ machine) fun found _ reads => ?_
      cases reads
      split
      · exact judgement.fail _ machine
      · next owner binding owned =>
        split
        · next assignable =>
          refine judgement.bindAt (usedValue_satisfies judgement evaluated value machine)
            fun result between evaluates => ?_
          rw [action_usedValue] at evaluates
          have alikeAfter := usedValue_alike alike value machine result between evaluates
          obtain ⟨later, assigns, same⟩ := alikeAfter.assigns unreserved owned assignable
          rw [← same.declarator]
          exact judgement.bindAt (judgement.storeAt assigns result) fun _ _ _ =>
            judgement.pure _ _
        · exact judgement.fail _ machine

/-! ## Calls -/

include evaluated in
theorem bindArguments_satisfies (arguments : List Expression) (parameters : List Declarator) :
    (bindArguments evaluate arguments parameters).Satisfies judgement := by
  induction arguments generalizing parameters with
  | nil => exact judgement.pure _
  | cons argument arguments ih =>
      cases parameters with
      | nil => exact judgement.pure _
      | cons parameter parameters =>
          exact judgement.bind (judgement.read _) fun _ =>
            judgement.bind (evaluated argument) fun _ =>
              judgement.bind (ih parameters) fun _ => judgement.pure _

include evaluated in
theorem runRoutine_satisfies (routine : Routine) :
    (runRoutine evaluate routine).Satisfies judgement := by
  have text (operation : String → Option String) :
      (textRoutine operation : Tracing Value).Satisfies judgement :=
    judgement.bind (judgement.valueOf "t") fun _ => judgement.pure _
  have split (operation : String → String × Option String) (left right : String) :
      (splitRoutine evaluate operation left right).Satisfies judgement :=
    judgement.bind (judgement.valueOf "source") fun _ =>
      judgement.bind (judgement.read _) fun _ =>
        judgement.bind (evaluated _) fun _ => evaluated _
  cases routine with
  | print =>
      exact judgement.bind (judgement.valueOf "t") fun _ =>
        judgement.bind (judgement.emit _) fun _ => judgement.pure _
  | quit => exact judgement.halt .quit
  | first => exact text _
  | last => exact text _
  | body => exact text _
  | tail => exact text _
  | split => exact split _ _ _
  | backSplit => exact split _ _ _
  | fizzBuzz =>
      refine judgement.bind (judgement.valueOf "n") fun value => ?_
      cases value.asNumber? with
      | none => exact judgement.pure _
      | some number => exact judgement.bind (judgement.emit _) fun _ => judgement.pure _

include executed in
theorem runBody_satisfies (signature : FunctionSignature) (body : Statement) :
    (runBody execute signature body).Satisfies judgement := by
  have fallsThrough : (fallThrough signature : Tracing Value).Satisfies judgement := by
    unfold fallThrough
    split
    · exact judgement.read _
    · exact judgement.bind (judgement.read _) fun _ =>
        judgement.bind (judgement.emit _) fun _ => judgement.read _
  refine judgement.bind (executed body) fun flow => ?_
  cases flow with
  | giveBack value => exact judgement.pure _
  | normal => exact fallsThrough
  | skip => exact fallsThrough
  | stop => exact fallsThrough

include evaluated executed in
theorem callFunction_satisfies (signature : FunctionSignature) (body : Statement)
    (routine : Option Routine) (arguments : List Expression) (span : Span) :
    (callFunction evaluate execute signature body routine arguments span).Satisfies judgement := by
  refine judgement.bind (judgement.read _) fun expected => ?_
  split
  · exact judgement.fail _
  · intro machine
    refine judgement.bindAt
      (bindArguments_satisfies judgement evaluated arguments signature.parameters machine)
      fun parameters between binds => ?_
    rw [action_bindArguments] at binds
    have bound := bindArguments_bound _ arguments signature.parameters machine parameters between
      binds
    have opened : (functionFrame signature span parameters).Opened := .function signature span bound
    cases routine with
    | none =>
        exact judgement.inFrame (runBody_satisfies judgement executed signature body) opened
          span _ between
    | some routine =>
        exact judgement.inFrame (runRoutine_satisfies judgement evaluated routine) opened
          span _ between

include evaluated executed in
theorem callPattern_satisfies (signature : PatternSignature) (body : Statement)
    (routine : Option Routine) (argument : Expression) (span : Span) :
    (callPattern evaluate execute signature body routine argument span).Satisfies judgement := by
  refine judgement.bind (judgement.read _) fun site =>
    judgement.bind (usedValue_satisfies judgement evaluated argument) fun value => ?_
  have opened := Frame.Opened.pattern signature span value site
  cases routine with
  | none => exact judgement.inFrame (executed body) opened span _
  | some routine =>
      exact judgement.inFrame (runRoutine_satisfies judgement evaluated routine) opened span _

include evaluated executed in
theorem call_satisfies (name : String) (arguments : List Expression) (span : Span) :
    (call evaluate execute name arguments span).Satisfies judgement := by
  refine judgement.bind (judgement.read _) fun resolved =>
    judgement.bind (judgement.ofExcept _) fun found => ?_
  cases found with
  | none => exact judgement.fail _
  | some entry =>
      obtain ⟨callable, routine⟩ := entry
      cases callable with
      | function signature body =>
          exact callFunction_satisfies judgement evaluated executed signature body routine
            arguments span
      | pattern signature body =>
          cases arguments with
          | nil => exact judgement.pure _
          | cons argument _ =>
              exact callPattern_satisfies judgement evaluated executed signature body routine
                argument span

include evaluated executed alike in
theorem expressionStep_satisfies (maxDepth : Nat) (expression : Expression) :
    (expressionStep evaluate execute maxDepth expression).Satisfies judgement := by
  refine judgement.bind (judgement.enter _ _) fun _ =>
    judgement.bind (judgement.update fun _ => .marked _) fun _ =>
      judgement.bind ?_ fun _ => judgement.bind judgement.leave fun _ =>
        judgement.bind (judgement.update fun _ => .noted _ _ _) fun _ =>
          judgement.pure _
  cases expression with
  | literal span value => exact judgement.pure _
  | identifier span name => exact judgement.valueOf name
  | unary span operator operand =>
      exact judgement.bind (usedValue_satisfies judgement evaluated operand) fun _ =>
        judgement.pure _
  | binary span operator left right =>
      exact judgement.bind (usedValue_satisfies judgement evaluated left) fun _ =>
        judgement.bind (usedValue_satisfies judgement evaluated right) fun _ =>
          judgement.ofExcept _
  | ternary span test yes no =>
      refine judgement.bind (condition_satisfies judgement evaluated test) fun holds => ?_
      split
      · exact evaluated yes
      · cases no with
        | none => exact judgement.pure _
        | some no => exact evaluated no
  | pipe span first success failure =>
      exact pipe_satisfies judgement evaluated first success failure
  | noneTest span operand =>
      exact judgement.bind (usedValue_satisfies judgement evaluated operand) fun _ =>
        judgement.pure _
  | assign span target value => exact assign_satisfies judgement evaluated alike target value
  | call span name arguments =>
      exact call_satisfies judgement evaluated executed name arguments span

/-! ## Statements -/

theorem addVariable_satisfies {binding : Variable} (fresh : binding.Declared) :
    (addVariable binding : Tracing Unit).Satisfies judgement := by
  intro machine
  refine judgement.bindAt (judgement.read _ machine) fun _ _ reads => ?_
  cases reads
  split
  · next frame declares => exact judgement.updateAt (.variableDeclared fresh declares)
  · exact judgement.fail _ machine

include evaluated in
theorem declareVariable_satisfies (declarator : Declarator) (initial : Option Expression) :
    (declareVariable evaluate declarator initial).Satisfies judgement := by
  unfold declareVariable
  split
  · exact judgement.fail _
  · next unreserved =>
    have free : isReservedName declarator.name = false := by simpa using unreserved
    cases initial with
    | none =>
        have fresh := Variable.Declared.uninitialized declarator free
        exact fun machine => judgement.bindAt (judgement.pure _ machine) fun _ _ binds => by
          cases binds
          exact addVariable_satisfies judgement fresh machine
    | some initial =>
        refine judgement.bind (usedValue_satisfies judgement evaluated initial) fun value => ?_
        have fresh := Variable.Declared.holding declarator value free
        exact fun machine => judgement.bindAt (judgement.pure _ machine) fun _ _ binds => by
          cases binds
          exact addVariable_satisfies judgement fresh machine

theorem declareCallable_satisfies (declared : Callable) :
    (declareCallable declared : Tracing Unit).Satisfies judgement := by
  intro machine
  refine judgement.bindAt (judgement.read _ machine) fun checked _ reads => ?_
  cases reads
  refine judgement.bindAt (judgement.ofExcept _ machine) fun done between checks => ?_
  obtain ⟨free, rfl⟩ := ok_of_finished_ofExcept checks
  refine judgement.bindAt (judgement.read _ machine) fun _ _ reads => ?_
  cases reads
  exact judgement.bindAt (judgement.updateAt (.callableDeclared free)) fun _ after _ =>
    judgement.ofExcept _ after

include executed in
theorem block_satisfies (statements : List Statement) :
    (block execute statements).Satisfies judgement := by
  induction statements with
  | nil => exact judgement.pure _
  | cons statement statements ih =>
      refine judgement.bind (executed statement) fun flow => ?_
      cases flow with
      | normal =>
          refine judgement.bind (judgement.read _) fun ended => ?_
          split
          · exact judgement.pure _
          · exact ih
      | skip => exact judgement.pure _
      | stop => exact judgement.pure _
      | giveBack value => exact judgement.pure _

include evaluated executed in
theorem conditional_satisfies (test : Expression) (positive : Statement)
    (negative : Option Statement) :
    (conditional evaluate execute test positive negative).Satisfies judgement := by
  refine judgement.bind (condition_satisfies judgement evaluated test) fun holds => ?_
  split
  · exact judgement.bind (judgement.update fun _ => .flagsSet _) fun _ =>
      executed positive
  · refine judgement.bind (judgement.update fun _ => .flagsUnset _) fun _ => ?_
    cases negative with
    | none => exact judgement.pure _
    | some negative => exact executed negative

include evaluated executed in
theorem loopStep_satisfies {again : Expression → Statement → Tracing Flow}
    (repeated : ∀ test body, (again test body).Satisfies judgement) (test : Expression)
    (body : Statement) : (loopStep evaluate execute again test body).Satisfies judgement := by
  have leaves (flow : Flow) : (do
      update (·.unsetFlags .onlyLoop)
      return flow : Tracing Flow).Satisfies judgement :=
    judgement.bind (judgement.update fun _ => .flagsUnset _) fun _ =>
      judgement.pure flow
  refine judgement.bind (condition_satisfies judgement evaluated test) fun holds => ?_
  split
  · refine judgement.bind (judgement.update fun _ => .flagsSet _) fun _ =>
      judgement.bind (executed body) fun flow => ?_
    cases flow with
    | normal => exact repeated test body
    | skip => exact repeated test body
    | stop => exact leaves _
    | giveBack value => exact leaves _
  · exact leaves _

theorem loopJump_satisfies (flow : Flow) (illegal : RuntimeCause) :
    (loopJump flow illegal : Tracing Flow).Satisfies judgement := by
  refine judgement.bind (judgement.read _) fun frame => ?_
  split
  · exact judgement.fail _
  · split
    · exact judgement.pure _
    · exact judgement.fail _

include evaluated in
theorem giveBack_satisfies (value : Option Expression) :
    (giveBack evaluate value).Satisfies judgement := by
  refine judgement.bind (judgement.read _) fun frame => ?_
  split
  · exact judgement.fail _
  · split
    · exact judgement.fail _
    · split
      · exact judgement.fail _
      · exact judgement.pure _
      · exact judgement.fail _
      · exact judgement.bind (usedValue_satisfies judgement evaluated _) fun _ =>
          judgement.pure _

include evaluated executed in
theorem statementStep_satisfies {rounds : Expression → Statement → Tracing Flow}
    (repeated : ∀ test body, (rounds test body).Satisfies judgement) (maxDepth : Nat)
    (statement : Statement) :
    (statementStep evaluate execute rounds maxDepth statement).Satisfies judgement := by
  refine judgement.bind (judgement.enter _ _) fun _ =>
    judgement.bind (judgement.update fun _ => .marked _) fun _ =>
      judgement.bind ?_ fun _ => judgement.bind judgement.leave fun _ => judgement.pure _
  cases statement with
  | expression content => exact judgement.bind (evaluated content) fun _ => judgement.pure _
  | «variable» declarator initial =>
      exact judgement.bind (declareVariable_satisfies judgement evaluated declarator initial)
        fun _ => judgement.pure _
  | function signature body =>
      exact judgement.bind (declareCallable_satisfies judgement _) fun _ => judgement.pure _
  | pattern signature body =>
      exact judgement.bind (declareCallable_satisfies judgement _) fun _ => judgement.pure _
  | compound span children =>
      exact judgement.inScope (block_satisfies judgement executed children) .block
  | conditional span test positive negative =>
      exact conditional_satisfies judgement evaluated executed test positive negative
  | loop span test body => exact repeated test body
  | skip span => exact loopJump_satisfies judgement _ _
  | stop span => exact loopJump_satisfies judgement _ _
  | giveBack span value => exact giveBack_satisfies judgement evaluated value
  | matching span subject body =>
      exact judgement.bind (usedValue_satisfies judgement evaluated subject) fun value =>
        judgement.inScope (executed body) (.subject span value)
  | empty span => exact judgement.pure _

end Nodes

/-! ## Whole evaluations -/

/-- A judgement holds of every evaluation on every machine. -/
theorem Tracing.Judgement.evaluation (judgement : Tracing.Judgement) (maxDepth fuel : Nat) :
    (∀ expression, (evaluate maxDepth fuel expression : Tracing Value).Satisfies judgement) ∧
    (∀ statement, (execute maxDepth fuel statement : Tracing Flow).Satisfies judgement) ∧
    (∀ test body,
      (executeRounds maxDepth fuel test body : Tracing Flow).Satisfies judgement) := by
  induction fuel with
  | zero =>
      exact ⟨fun _ => judgement.exhaust, fun _ => judgement.exhaust, fun _ _ => judgement.exhaust⟩
  | succ fuel ih =>
      obtain ⟨evaluated, executed, repeated⟩ := ih
      have alike (expression : Expression) :
          (evaluate maxDepth fuel expression : Tracing Value).action.Within Machine.Alike := by
        rw [action_evaluate]
        exact evaluate_alike maxDepth fuel expression
      refine ⟨fun expression => ?_, fun statement => ?_, fun test body => ?_⟩
      · exact expressionStep_satisfies judgement evaluated executed alike maxDepth expression
      · exact statementStep_satisfies judgement evaluated executed repeated maxDepth statement
      · exact loopStep_satisfies judgement evaluated executed repeated test body

end Plainspoken
