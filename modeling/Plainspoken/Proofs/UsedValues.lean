import Plainspoken.Proofs.CallableTable
import Plainspoken.Proofs.CallerLocals
import Plainspoken.Proofs.ExpressionRules
import Plainspoken.Proofs.Jumps
import Plainspoken.Proofs.Moments

/-!
# Where values are used

A function without a result may not be called where its value is used: as an operand, as
a condition, as what flows into a pipe, as what a variable is given, as a result, as the
subject of a match or as the argument of a pattern.  There the flag of an expected value is
set on the innermost scope while the expression is evaluated, so the call is refused before
it does anything.

The arguments of a function are evaluated without that flag of their own.  They are refused
a call without a result only if the flag is set already, for the sake of the function whose
arguments they are.  Otherwise the call is made and nothing is passed on.
-/

namespace Plainspoken

open Stepping Evaluation

/-! ## Actions that are halted -/

namespace Action

variable {α β : Type} {machine after : Machine} {reason : Halt}

theorem halted_at_once {first : Action β} {second : β → Action α}
    (halted : first machine = .halted reason after) :
    (first >>= second) machine = .halted reason after := by
  change andThen first second machine = _
  simp only [andThen, halted]

theorem halted_after {first : Action β} {second : β → Action α} {middle : β} {between : Machine}
    (finished : first machine = .finished middle between)
    (halted : second middle between = .halted reason after) :
    (first >>= second) machine = .halted reason after := by
  change andThen first second machine = _
  simp only [andThen, finished, halted]

theorem halted_andFinally {action : Action α} {between : Machine}
    (halted : action machine = .halted reason between) (change : Machine → Machine) :
    (andFinally action change) machine = .halted reason (change between) := by
  change (action machine).mapMachine change = _
  rw [halted]
  rfl

/-- The node of a given place is halted at the limit of nesting. -/
theorem halted_enter {maxDepth : Nat} (span : Span) (deep : maxDepth ≤ machine.depth + 1) :
    (enter maxDepth span : Action Unit) machine =
      .halted (.failed (.stackOverflow span)) { machine with depth := machine.depth + 1 } := by
  change (if decide (maxDepth ≤ machine.depth + 1) = true then fail (.stackOverflow span)
    else pure () : Action Unit) { machine with depth := machine.depth + 1 } = _
  rw [if_pos (decide_eq_true deep)]
  rfl

end Action

/-- Some amount of fuel suffices to be halted. -/
def Halts {α : Type} (family : Nat → Action α) (machine : Machine) (reason : Halt)
    (after : Machine) : Prop :=
  ∃ fuel, family fuel machine = .halted reason after

namespace Halts

variable {α β : Type} {machine between after : Machine} {reason : Halt} {middle : β}

/-- More fuel changes nothing. -/
theorem of_le {family : Nat → Action α}
    (step : ∀ fuel, approximating.Related (family fuel) (family (fuel + 1))) {less more : Nat}
    (halted : family less machine = .halted reason after) (enough : less ≤ more) :
    family more machine = .halted reason after := by
  rcases approximating_of_le step enough machine with exhausted | same
  · rw [exhausted] at halted
    cases halted
  · rw [← same, halted]

theorem bind {first : Nat → Action β} {second : Nat → β → Action α}
    (halts : Halts first machine reason after) :
    Halts (fun fuel => first fuel >>= second fuel) machine reason after := by
  obtain ⟨fuel, halted⟩ := halts
  exact ⟨fuel, Action.halted_at_once halted⟩

private theorem bind_of_finishes {first : Nat → Action β} {second : Nat → β → Action α}
    (firstStep : ∀ fuel, approximating.Related (first fuel) (first (fuel + 1)))
    (secondStep : ∀ fuel, approximating.Related (second fuel middle) (second (fuel + 1) middle))
    (finishes : Finishes first machine middle between)
    (halts : Halts (fun fuel => second fuel middle) between reason after) :
    Halts (fun fuel => first fuel >>= second fuel) machine reason after := by
  obtain ⟨firstFuel, finished⟩ := finishes
  obtain ⟨secondFuel, halted⟩ := halts
  have firstFinished := Finishes.of_le firstStep finished (Nat.le_max_left firstFuel secondFuel)
  have secondHalted := of_le secondStep halted (Nat.le_max_right firstFuel secondFuel)
  exact ⟨max firstFuel secondFuel, Action.halted_after firstFinished secondHalted⟩

theorem andFinally {family : Nat → Action α} (halts : Halts family machine reason between)
    (change : Machine → Machine) :
    Halts (fun fuel => andFinally (family fuel) change) machine reason (change between) := by
  obtain ⟨fuel, halted⟩ := halts
  exact ⟨fuel, Action.halted_andFinally halted change⟩

end Halts

section Nodes

variable {maxDepth : Nat} {machine after : Machine} {reason : Halt}

/-- What halts the node of an expression halts the expression. -/
theorem Halts.expression {expression : Expression} (shallow : machine.depth + 1 < maxDepth)
    (halts : Halts (fun fuel =>
      expressionNode (evaluate maxDepth fuel) (execute maxDepth fuel) expression)
      (machine.entered expression.span) reason after) :
    Halts (fun fuel => evaluate maxDepth fuel expression) machine reason after := by
  obtain ⟨fuel, halted⟩ := halts
  refine ⟨fuel + 1, ?_⟩
  change (evaluate maxDepth (fuel + 1) expression : Action Value) machine = _
  rw [evaluate]
  refine Action.halted_after ((Action.finished_enter _ _ ()).mpr ⟨shallow, rfl⟩) ?_
  refine Action.halted_after rfl ?_
  exact Action.halted_at_once halted

/-- What halts the node of a statement halts the statement. -/
theorem Halts.statement {statement : Statement} (shallow : machine.depth + 1 < maxDepth)
    (halts : Halts (fun fuel => statementNode (evaluate maxDepth fuel) (execute maxDepth fuel)
      (executeRounds maxDepth fuel) statement) (machine.entered statement.span) reason after) :
    Halts (fun fuel => execute maxDepth fuel statement) machine reason after := by
  obtain ⟨fuel, halted⟩ := halts
  refine ⟨fuel + 1, ?_⟩
  change (execute maxDepth (fuel + 1) statement : Action Flow) machine = _
  rw [execute]
  refine Action.halted_after ((Action.finished_enter _ _ ()).mpr ⟨shallow, rfl⟩) ?_
  refine Action.halted_after rfl ?_
  exact Action.halted_at_once halted

end Nodes

/-! ## Calls that are refused -/

namespace Flags

@[simp]
theorem includes_onlyExpectValue (flags : Flags) :
    flags.includes onlyExpectValue = flags.expectValue := by
  obtain ⟨loop, call, matching, lastCondition, expectValue⟩ := flags
  cases expectValue <;> simp [includes, without, onlyExpectValue, empty]

end Flags

namespace Machine

/-- The machine with an open scope in the current frame, on which the flag of an expected
value can be set. -/
theorem expects_setFlags {machine : Machine} (isOpen : machine.current.scopes ≠ []) :
    (machine.setFlags .onlyExpectValue).current.hasFlags .onlyExpectValue = true := by
  change (machine.current.setFlags .onlyExpectValue).hasFlags .onlyExpectValue = true
  unfold Frame.hasFlags Frame.setFlags Frame.modifyInnermost
  cases scopes : machine.current.scopes with
  | nil => exact absurd scopes isOpen
  | cons inner outer =>
      rw [List.modifyHead_cons, List.any_cons, Flags.includes_onlyExpectValue]
      simp [Scope.setFlags, Flags.union, Flags.onlyExpectValue]

/-- What is done about the flag of an expected value after a value has been used. -/
def restoreExpected (machine after : Machine) : Machine :=
  if machine.current.innermostFlags.expectValue then after
  else after.unsetFlags .onlyExpectValue

/-- Once the flag has been restored it is as if it had never been set. -/
theorem restoreExpected_setFlags (machine : Machine) :
    machine.restoreExpected (machine.setFlags .onlyExpectValue) = machine := by
  obtain ⟨⟨⟨name, span, returns, scopes⟩, callers⟩, depth, lastValue, emitted⟩ := machine
  unfold restoreExpected
  cases scopes with
  | nil => rfl
  | cons inner outer =>
      simp only [current, Frame.innermostFlags, List.head?_cons, Option.map_some,
        Option.getD_some, setFlags, unsetFlags, modifyCurrent, CallStack.modifyCurrent,
        Frame.setFlags, Frame.unsetFlags, Frame.modifyInnermost, List.modifyHead_cons,
        Scope.setFlags, Scope.unsetFlags]
      split
      · next expected => rw [Flags.union_onlyExpectValue_of_expectValue expected]
      · next unexpected =>
        rw [Flags.union_without_onlyExpectValue (Bool.eq_false_iff.mpr unexpected)]

/-- What is done about the flag does not interfere with other changes. -/
theorem restoreExpected_of_commutes (machine after : Machine) {change : Machine → Machine}
    (commutes : ∀ other : Machine, (change other).unsetFlags .onlyExpectValue =
      change (other.unsetFlags .onlyExpectValue)) :
    machine.restoreExpected (change after) = change (machine.restoreExpected after) := by
  unfold restoreExpected
  split
  · rfl
  · exact commutes after

end Machine

/-- How a call without a result is refused: at its own node, or because the nesting is too
deep for one more. -/
inductive Refuses (maxDepth : Nat) (machine : Machine) (span : Span) : Halt → Machine → Prop where
  | returnsNothing (shallow : machine.depth + 1 < maxDepth) :
      Refuses maxDepth machine span (.failed .returnedNothing) (machine.entered span)
  | tooDeep (deep : maxDepth ≤ machine.depth + 1) :
      Refuses maxDepth machine span (.failed (.stackOverflow span))
        { machine with depth := machine.depth + 1 }

theorem Refuses.exists (maxDepth : Nat) (machine : Machine) (span : Span) :
    ∃ reason after, Refuses maxDepth machine span reason after := by
  by_cases shallow : machine.depth + 1 < maxDepth
  · exact ⟨_, _, .returnsNothing shallow⟩
  · exact ⟨_, _, .tooDeep (Nat.le_of_not_lt shallow)⟩

/-- The flag of an expected value leaves no trace in the machine that is left. -/
theorem Refuses.setFlags {maxDepth : Nat} {machine after : Machine} {span : Span} {reason : Halt}
    (refuses : Refuses maxDepth machine span reason after) :
    ∃ between, Refuses maxDepth (machine.setFlags .onlyExpectValue) span reason between ∧
      machine.restoreExpected between = after := by
  have restored := machine.restoreExpected_setFlags
  cases refuses with
  | returnsNothing shallow =>
      let change (other : Machine) : Machine := other.entered span
      refine ⟨change (machine.setFlags .onlyExpectValue), .returnsNothing shallow, ?_⟩
      rw [machine.restoreExpected_of_commutes _ fun _ => rfl, restored]
  | tooDeep deep =>
      let change (other : Machine) : Machine := { other with depth := other.depth + 1 }
      refine ⟨change (machine.setFlags .onlyExpectValue), .tooDeep deep, ?_⟩
      rw [machine.restoreExpected_of_commutes _ fun _ => rfl, restored]

/-- A call to a function that has no result, as a machine resolves it. -/
structure Machine.CallsForNothing (machine : Machine) (name : String)
    (arguments : List Expression) : Prop where
  resolves : ∃ signature body routine, resolve machine name arguments.length =
    .ok (some ⟨.function signature body, routine⟩) ∧ signature.returns = .nothing

/-- What a call refers to does not depend on flags. -/
theorem Machine.resolve_setFlags (machine : Machine) (flags : Flags) (name : String)
    (arity : Nat) : resolve (machine.setFlags flags) name arity = resolve machine name arity := by
  obtain ⟨⟨⟨_, _, _, scopes⟩, callers⟩, _, _, _⟩ := machine
  cases callers with
  | nil => cases scopes <;> rfl
  | cons caller callers => cases scopes <;> rfl

theorem Machine.CallsForNothing.setFlags {machine : Machine} {name : String}
    {arguments : List Expression} (calls : machine.CallsForNothing name arguments)
    (flags : Flags) : (machine.setFlags flags).CallsForNothing name arguments := by
  obtain ⟨signature, body, routine, resolves, noResult⟩ := calls.resolves
  exact ⟨signature, body, routine, (machine.resolve_setFlags flags _ _).trans resolves, noResult⟩

section Refusals

variable {maxDepth : Nat} {machine after : Machine} {reason : Halt} {span : Span} {name : String}
  {arguments : List Expression}

/-- Where a value is expected, a call without a result is refused before its arguments are
evaluated. -/
theorem Machine.CallsForNothing.halts (calls : machine.CallsForNothing name arguments)
    (expects : machine.current.hasFlags .onlyExpectValue = true)
    (refuses : Refuses maxDepth machine span reason after) :
    Halts (fun fuel => evaluate maxDepth fuel (.call span name arguments)) machine reason
      after := by
  cases refuses with
  | tooDeep deep =>
      refine ⟨1, ?_⟩
      change (evaluate maxDepth (0 + 1) (.call span name arguments) : Action Value) machine = _
      rw [evaluate]
      exact Action.halted_at_once (Action.halted_enter span deep)
  | returnsNothing shallow =>
      obtain ⟨signature, body, routine, resolves, noResult⟩ := calls.resolves
      rw [← Watching.resolve_entered machine (machine.depth + 1) span] at resolves
      refine .expression shallow ⟨0, ?_⟩
      refine Action.halted_after rfl ?_
      refine Action.halted_after ((Action.finished_ofExcept _).mpr ⟨resolves, rfl⟩) ?_
      refine Action.halted_after rfl ?_
      change (ite (signature.returns = .nothing ∧
        machine.current.hasFlags .onlyExpectValue = true) _ _ : Action Value) _ = _
      rw [if_pos ⟨noResult, expects⟩]
      rfl

/-- Used as a value, a call without a result is refused. -/
theorem Machine.CallsForNothing.halts_usedValue (calls : machine.CallsForNothing name arguments)
    (isOpen : machine.current.scopes ≠ []) (refuses : Refuses maxDepth machine span reason after) :
    Halts (fun fuel => usedValue (evaluate maxDepth fuel) (.call span name arguments)) machine
      reason after := by
  obtain ⟨between, refusesInside, rfl⟩ := refuses.setFlags
  have halts := (calls.setFlags .onlyExpectValue).halts (expects_setFlags isOpen) refusesInside
  exact halts.andFinally machine.restoreExpected

end Refusals

/-! ## Open scopes -/

namespace Machine

private theorem isOpen_of_shape_eq {machine after : Machine} (same : after.shape = machine.shape)
    (isOpen : machine.current.scopes ≠ []) : after.current.scopes ≠ [] := by
  have lengths : after.current.scopes.length = machine.current.scopes.length :=
    (List.cons_eq_cons.mp same).1
  intro closed
  rw [closed] at lengths
  exact isOpen (List.eq_nil_of_length_eq_zero lengths.symm)

theorem shape_modifyInnermost (machine : Machine) (change : Scope → Scope) :
    (machine.modifyCurrent (·.modifyInnermost change)).shape = machine.shape := by
  have length : (machine.current.modifyInnermost change).scopes.length =
      machine.current.scopes.length := List.length_modifyHead
  exact congrArg (· :: machine.stack.callers.map (·.scopes.length)) length

theorem shape_setFlags (machine : Machine) (flags : Flags) :
    (machine.setFlags flags).shape = machine.shape :=
  machine.shape_modifyInnermost _

/-- The machines on which a node of a program can begin: those that a run passes through in
the frame of the program, and those that the body of a call passes through in the frame of
the call. -/
inductive Underway : Machine → Prop where
  | program {session : Session} (batch : session.Batch) (fuel : Nat) (program : Statement)
      {machine : Machine} (passed : machine ∈ session.machine ::
        ((execute session.limits.maxDepth fuel program : Tracing Flow) session.machine).passed)
      (level : machine.stack.height = session.machine.stack.height) : Underway machine
  | body {caller : Machine} (underway : caller.Underway) {maxDepth fuel : Nat}
      {call : Action Value} {body : Statement} {passing : List (Declarator × Expression)}
      {called machine : Machine} (calls : caller.Calls maxDepth fuel call body passing called)
      (passed : machine ∈ called ::
        ((execute maxDepth fuel body : Tracing Flow) called).passed)
      (level : machine.stack.height = called.stack.height) : Underway machine

/-- As long as a frame is on top again, its scopes are those that were open before and
perhaps more. -/
theorem isOpen_of_passed {start machine : Machine} (isOpen : start.current.scopes ≠ [])
    {maxDepth fuel : Nat} {statement : Statement}
    (passed : machine ∈ start ::
      ((execute maxDepth fuel statement : Tracing Flow) start).passed)
    (level : machine.stack.height = start.stack.height) : machine.current.scopes ≠ [] := by
  have retains : start.Retains machine := by
    rcases List.mem_cons.mp passed with rfl | later
    · exact .refl _
    · have maintains := evaluation_maintains Machine.Retains.maintained maxDepth fuel
      exact (maintains.2.1 statement start).passed machine later
  obtain ⟨frame, found, longer⟩ := retains _ _ (CallStack.frame?_height start.stack)
  rw [← level, CallStack.frame?_height] at found
  cases found
  intro closed
  have isClosed : machine.stack.current.scopes.length = 0 := by
    rw [show machine.stack.current.scopes = [] from closed, List.length_nil]
  rw [isClosed] at longer
  exact isOpen (List.eq_nil_of_length_eq_zero (Nat.le_zero.mp longer))

theorem Calls.isOpen {caller called : Machine} {maxDepth fuel : Nat} {call : Action Value}
    {body : Statement} {passing : List (Declarator × Expression)}
    (calls : caller.Calls maxDepth fuel call body passing called) :
    called.current.scopes ≠ [] := by
  cases calls with
  | @function signature _ _ span parameters _ permitted binds =>
      intro closed
      have flags := map_flags_functionFrame signature span parameters
      rw [show (functionFrame signature span parameters).scopes = [] from closed] at flags
      cases flags
  | pattern evaluates => exact List.cons_ne_nil _ _

theorem Underway.isOpen {machine : Machine} (underway : machine.Underway) :
    machine.current.scopes ≠ [] := by
  cases underway with
  | program batch fuel program passed level =>
      refine isOpen_of_passed ?_ passed level
      rw [current, batch.stack_eq]
      exact List.cons_ne_nil _ _
  | body underway calls passed level => exact isOpen_of_passed calls.isOpen passed level

end Machine

/-! ## Positions whose value is used -/

/-- A loop has done some rounds and is about to decide whether to do another one. -/
inductive LoopReaches (maxDepth : Nat) (test : Expression) (body : Statement) :
    Machine → Machine → Prop where
  | here (machine : Machine) : LoopReaches maxDepth test body machine machine
  | again {machine decided after reached : Machine} {flow : Flow}
      (holds : Decides maxDepth test machine true decided)
      (runs : Executes maxDepth body (decided.setFlags .onlyLoop) flow after)
      (goesOn : flow = .normal ∨ flow = .skip)
      (rest : LoopReaches maxDepth test body after reached) :
      LoopReaches maxDepth test body machine reached

/-- What stands at a node has begun on the first machine and has come to an expression
whose value it uses, on the second machine. -/
inductive Uses (maxDepth : Nat) (inside : Machine) : Node → Expression → Machine → Prop where
  | operand {span : Span} {operator : UnaryOperator} {operand : Expression} :
      Uses maxDepth inside (.expression (.unary span operator operand)) operand inside
  | left {span : Span} {operator : BinaryOperator} {left right : Expression} :
      Uses maxDepth inside (.expression (.binary span operator left right)) left inside
  | right {span : Span} {operator : BinaryOperator} {left right : Expression} {value : Value}
      {between : Machine} (yields : Yields maxDepth left inside value between) :
      Uses maxDepth inside (.expression (.binary span operator left right)) right between
  | noneTest {span : Span} {operand : Expression} :
      Uses maxDepth inside (.expression (.noneTest span operand)) operand inside
  | choice {span : Span} {test yes : Expression} {no : Option Expression} :
      Uses maxDepth inside (.expression (.ternary span test yes no)) test inside
  | inflow {span : Span} {first : Expression} {success failure : Option Expression} :
      Uses maxDepth inside (.expression (.pipe span first success failure)) first inside
  | assigned {span : Span} {target value : Expression} {name : String} {owner : Site}
      {binding : Variable} (named : target.name? = some name)
      (free : isReservedName name = false)
      (owned : inside.ownerOf? name = some (owner, binding))
      (assignable : binding.declarator.isMutable = true) :
      Uses maxDepth inside (.expression (.assign span target value)) value inside
  | matched {span : Span} {name : String} {argument : Expression} {others : List Expression}
      {signature : PatternSignature} {body : Statement} {routine : Option Routine}
      (resolves : resolve inside name (argument :: others).length =
        .ok (some ⟨.pattern signature body, routine⟩)) :
      Uses maxDepth inside (.expression (.call span name (argument :: others))) argument inside
  | condition {span : Span} {test : Expression} {positive : Statement}
      {negative : Option Statement} :
      Uses maxDepth inside (.statement (.conditional span test positive negative)) test inside
  | round {span : Span} {test : Expression} {body : Statement} {reached : Machine}
      (reaches : LoopReaches maxDepth test body inside reached) :
      Uses maxDepth inside (.statement (.loop span test body)) test reached
  | initial {declarator : Declarator} {initial : Expression}
      (free : isReservedName declarator.name = false) :
      Uses maxDepth inside (.statement (.variable declarator (some initial))) initial inside
  | result {span : Span} {value : Expression}
      (unmatched : inside.current.hasFlags .onlyMatching = false)
      (called : inside.current.hasFlags .onlyCall = true)
      (expected : inside.current.returns ≠ .nothing) :
      Uses maxDepth inside (.statement (.giveBack span (some value))) value inside
  | subject {span : Span} {subject : Expression} {body : Statement} :
      Uses maxDepth inside (.statement (.matching span subject body)) subject inside

def Node.span : Node → Span
  | .expression content => content.span
  | .statement content => content.span

/-- The evaluation of a node is halted. -/
def Node.Halts (maxDepth : Nat) : Node → Machine → Halt → Machine → Prop
  | .expression content => Plainspoken.Halts fun fuel => evaluate maxDepth fuel content
  | .statement content => Plainspoken.Halts fun fuel => execute maxDepth fuel content

section Positions

variable {maxDepth : Nat} {machine reached after : Machine} {reason : Halt}

private theorem LoopReaches.shape_eq {test : Expression} {body : Statement}
    (reaches : LoopReaches maxDepth test body machine reached) : reached.shape = machine.shape := by
  induction reaches with
  | here machine => rfl
  | again holds runs _ _ ih =>
      rw [ih, runs.extended.shape_eq, Machine.shape_setFlags, holds.alike.extended.shape_eq]

private theorem Uses.shape_eq {node : Node} {operand : Expression}
    (uses : Uses maxDepth machine node operand reached) : reached.shape = machine.shape := by
  cases uses with
  | right yields => exact yields.alike.extended.shape_eq
  | round reaches => exact reaches.shape_eq
  | _ => rfl

/-- A loop is halted where one of its conditions is. -/
theorem LoopReaches.halts {test : Expression} {body : Statement}
    (reaches : LoopReaches maxDepth test body machine reached)
    (halts : Halts (fun fuel => usedValue (evaluate maxDepth fuel) test) reached reason after) :
    Halts (fun fuel => executeRounds maxDepth fuel test body) machine reason after := by
  have repeated (fuel : Nat) : approximating.Related (executeRounds maxDepth fuel test body)
      (executeRounds maxDepth (fuel + 1) test body) :=
    (evaluation_approximates maxDepth fuel).2.2 test body
  induction reaches with
  | here machine =>
      obtain ⟨fuel, halted⟩ := (halts.bind.bind : Halts (fun fuel => loopStep
        (evaluate maxDepth fuel) (execute maxDepth fuel) (executeRounds maxDepth fuel) test body)
        machine reason after)
      exact ⟨fuel + 1, halted⟩
  | @again machine decided between reached flow holds runs goesOn rest ih =>
      obtain ⟨testFuel, decides⟩ := holds
      obtain ⟨bodyFuel, executes⟩ := runs
      obtain ⟨roundsFuel, halted⟩ := ih halts
      let fuel := max testFuel (max bodyFuel roundsFuel)
      have decidesNow := Finishes.of_le (condition_approximates maxDepth · test) decides
        (show testFuel ≤ fuel by omega)
      have executesNow := Finishes.of_le (execute_approximates maxDepth · body) executes
        (show bodyFuel ≤ fuel by omega)
      have haltedNow := Halts.of_le repeated halted (show roundsFuel ≤ fuel by omega)
      refine ⟨fuel + 1, Action.halted_after decidesNow ?_⟩
      refine Action.halted_after rfl ?_
      refine Action.halted_after executesNow ?_
      rcases goesOn with rfl | rfl
      · exact haltedNow
      · exact haltedNow

/-- A node is halted where an expression is whose value it uses. -/
theorem Uses.halts {node : Node} {operand : Expression}
    (shallow : machine.depth + 1 < maxDepth)
    (uses : Uses maxDepth (machine.entered node.span) node operand reached)
    (halts : Halts (fun fuel => usedValue (evaluate maxDepth fuel) operand) reached reason
      after) : node.Halts maxDepth machine reason after := by
  cases uses with
  | operand => exact .expression shallow halts.bind
  | left => exact .expression shallow halts.bind
  | right yields =>
      refine .expression shallow (.bind_of_finishes (usedValue_approximates maxDepth · _)
        (fun fuel => ?_) yields halts.bind)
      exact approximating.bind (usedValue_approximates maxDepth fuel _) fun _ =>
        approximating.ofExcept _
  | noneTest => exact .expression shallow halts.bind
  | choice => exact .expression shallow halts.bind.bind
  | inflow => exact .expression shallow halts.bind
  | @assigned span target _ name owner binding named free owned assignable =>
      obtain ⟨fuel, halted⟩ := halts
      refine .expression shallow ⟨fuel, ?_⟩
      change (assign (evaluate maxDepth fuel) target operand : Action Value) _ = _
      simp only [assign, named, free, Bool.false_eq_true, if_false]
      refine Action.halted_after ((Action.finished_read _).mpr ⟨owned, rfl⟩) ?_
      simp only [assignable, if_true]
      exact Action.halted_at_once halted
  | matched resolves =>
      obtain ⟨fuel, halted⟩ := halts
      refine .expression shallow ⟨fuel, ?_⟩
      refine Action.halted_after ((Action.finished_read _).mpr ⟨resolves, rfl⟩) ?_
      refine Action.halted_after ((Action.finished_ofExcept _).mpr ⟨rfl, rfl⟩) ?_
      refine Action.halted_after rfl ?_
      exact Action.halted_at_once halted
  | condition => exact .statement shallow halts.bind.bind
  | round reaches => exact .statement shallow (reaches.halts halts)
  | initial free =>
      obtain ⟨fuel, halted⟩ := halts
      refine .statement shallow ⟨fuel, Action.halted_at_once ?_⟩
      simp only [declareVariable, free, Bool.false_eq_true, if_false]
      exact Action.halted_at_once halted
  | result unmatched called expected =>
      obtain ⟨fuel, halted⟩ := halts
      refine .statement shallow ⟨fuel, ?_⟩
      refine Action.halted_after rfl ?_
      simp only [Node.span] at unmatched called expected
      simp only [unmatched, called, Bool.false_eq_true, Bool.not_true, if_false]
      exact Action.halted_at_once halted
  | subject => exact .statement shallow halts.bind

end Positions

/-! ## Arguments of functions -/

theorem Frame.Alike.hasFlags {before after : Frame} (alike : before.Alike after) (flags : Flags) :
    after.hasFlags flags = before.hasFlags flags := by
  unfold Frame.hasFlags
  have scopes := alike.scopes
  generalize before.scopes = inner, after.scopes = inner' at scopes
  induction scopes with
  | nil => rfl
  | cons head _ ih => rw [List.any_cons, List.any_cons, head.flags, ih]

/-- The evaluation of a call of a function, which is permitted, has come to one of the
arguments, on the second machine. -/
structure Machine.PassesArgument (maxDepth : Nat) (machine : Machine) (call : Expression)
    (argument : Expression) (reached : Machine) : Prop where
  shallow : machine.depth + 1 < maxDepth
  calls : ∃ span name earlier later signature body routine bound,
    call = .call span name (earlier ++ argument :: later) ∧
    resolve machine name (earlier ++ argument :: later).length =
      .ok (some ⟨.function signature body, routine⟩) ∧
    ¬ (signature.returns = .nothing ∧ machine.current.hasFlags .onlyExpectValue = true) ∧
    earlier.length < signature.parameters.length ∧
    BindsArguments maxDepth earlier signature.parameters (machine.entered span) bound reached

/-- The arguments that come after one that is halted are not evaluated. -/
theorem BindsArguments.halts {maxDepth : Nat} {earlier : List Expression} {argument : Expression}
    {parameters : List Declarator} {machine reached after : Machine} {bound : List Variable}
    {reason : Halt} (binds : BindsArguments maxDepth earlier parameters machine bound reached)
    (later : List Expression) (fits : earlier.length < parameters.length)
    (halts : Halts (fun fuel => evaluate maxDepth fuel argument) reached reason after) :
    Halts (fun fuel => bindArguments (evaluate maxDepth fuel) (earlier ++ argument :: later)
      parameters) machine reason after := by
  induction earlier generalizing parameters machine bound with
  | nil =>
      cases parameters with
      | nil => cases fits
      | cons parameter parameters =>
          obtain ⟨rfl, rfl⟩ := bindsArguments_nil_iff.mp binds
          obtain ⟨fuel, halted⟩ := halts
          refine ⟨fuel, Action.halted_after rfl ?_⟩
          exact Action.halted_at_once halted
  | cons first earlier ih =>
      cases parameters with
      | nil => cases fits
      | cons parameter parameters =>
          obtain ⟨value, between, rest, evaluates, restBinds, rfl⟩ :=
            bindsArguments_cons_iff.mp binds
          have restHalts := ih restBinds (Nat.lt_of_succ_lt_succ fits)
          let second (fuel : Nat) (value : Value) : Action (List Variable) := do
            let rest ← bindArguments (evaluate maxDepth fuel) (earlier ++ argument :: later)
              parameters
            return bindParameter parameter (value.cast parameter.type)
              (machine.argumentSite? first) :: rest
          have secondHalts : Halts (fun fuel => second fuel value) between reason after :=
            restHalts.bind
          have step (fuel : Nat) :
              approximating.Related (second fuel value) (second (fuel + 1) value) :=
            approximating.bind (bindArguments_approximates maxDepth fuel _ parameters) fun _ =>
              approximating.pure _
          obtain ⟨fuel, halted⟩ := Halts.bind_of_finishes
            (evaluate_approximates maxDepth · first) step evaluates secondHalts
          exact ⟨fuel, halted⟩

namespace Machine.PassesArgument

variable {maxDepth : Nat} {machine reached after : Machine} {call argument : Expression}
  {reason : Halt}

theorem hasFlags (passes : machine.PassesArgument maxDepth call argument reached)
    (flags : Flags) : reached.current.hasFlags flags = machine.current.hasFlags flags := by
  obtain ⟨span, _, _, _, _, _, _, _, _, _, _, _, binds⟩ := passes.calls
  exact binds.alike.stack.current.hasFlags flags

/-- A call is halted where one of its arguments is. -/
theorem halts (passes : machine.PassesArgument maxDepth call argument reached)
    (halts : Halts (fun fuel => evaluate maxDepth fuel argument) reached reason after) :
    Halts (fun fuel => evaluate maxDepth fuel call) machine reason after := by
  obtain ⟨span, name, earlier, later, signature, body, routine, bound, rfl, resolves, permitted,
    fits, binds⟩ := passes.calls
  obtain ⟨fuel, halted⟩ := binds.halts later fits halts
  rw [← Watching.resolve_entered machine (machine.depth + 1) span] at resolves
  refine .expression passes.shallow ⟨fuel, ?_⟩
  refine Action.halted_after rfl ?_
  refine Action.halted_after ((Action.finished_ofExcept _).mpr ⟨resolves, rfl⟩) ?_
  refine Action.halted_after rfl ?_
  change (ite (signature.returns = .nothing ∧
    machine.current.hasFlags .onlyExpectValue = true) _ _ : Action Value) _ = _
  rw [if_neg permitted]
  exact Action.halted_at_once halted

end Machine.PassesArgument

/-! ## Calls that are made -/

/-- What runs in the frame of a function. -/
def callee (maxDepth : Nat) (signature : FunctionSignature) (body : Statement)
    (routine : Option Routine) (fuel : Nat) : Action Value :=
  match routine with
  | some routine => runRoutine (evaluate maxDepth fuel) routine
  | none => runBody (execute maxDepth fuel) signature body

/-- What a function runs in its frame yields a result. -/
def RunsCallee (maxDepth : Nat) (signature : FunctionSignature) (body : Statement)
    (routine : Option Routine) : Machine → Value → Machine → Prop :=
  Finishes (callee maxDepth signature body routine)

/-- What a call yields for the result of what it has run. -/
def FunctionSignature.conclude (signature : FunctionSignature) (result : Value) : Value :=
  if signature.returns = .nothing then .nothing else result

section Calls

variable {maxDepth : Nat} {machine after : Machine} {value : Value} {span : Span}
  {arguments : List Expression} {signature : FunctionSignature} {body : Statement}
  {routine : Option Routine}

theorem callee_approximates (fuel : Nat) :
    approximating.Related (callee maxDepth signature body routine fuel)
      (callee maxDepth signature body routine (fuel + 1)) := by
  cases routine with
  | some routine =>
      exact approximating.simulation.runRoutine (evaluate_approximates maxDepth fuel) routine
  | none =>
      exact approximating.simulation.runBody
        (fun statement _ => execute_approximates maxDepth fuel statement) signature trivial

/-- A call puts a frame with the parameters on top, and takes it off afterwards. -/
def framed (maxDepth : Nat) (signature : FunctionSignature) (body : Statement)
    (routine : Option Routine) (span : Span) (parameters : List Variable) (fuel : Nat) :
    Action Value := do
  update (·.mark span)
  update (·.pushFrame (functionFrame signature span parameters))
  let result ← callee maxDepth signature body routine fuel
  update (·.popFrame)
  return signature.conclude result

theorem framed_approximates (parameters : List Variable) (fuel : Nat) :
    approximating.Related (framed maxDepth signature body routine span parameters fuel)
      (framed maxDepth signature body routine span parameters (fuel + 1)) :=
  approximating.bind (approximating.update _) fun _ =>
    approximating.bind (approximating.update _) fun _ =>
      approximating.bind (callee_approximates fuel) fun _ =>
        approximating.bind (approximating.update _) fun _ => approximating.pure _

theorem finishes_framed_iff {parameters : List Variable} :
    Finishes (framed maxDepth signature body routine span parameters) machine value after ↔
      ∃ result last, RunsCallee maxDepth signature body routine
          ((machine.mark span).pushFrame (functionFrame signature span parameters)) result last ∧
        value = signature.conclude result ∧ after = last.popFrame := by
  let closing (result : Value) : Action Value := do
    update (·.popFrame)
    return signature.conclude result
  have closes {result : Value} {last : Machine} :
      Finishes (fun _ => closing result) last value after ↔
        value = signature.conclude result ∧ after = last.popFrame := by
    rw [finishes_const_iff]
    simp only [closing, Action.finished_bind, Action.finished_update, Action.finished_pure]
    constructor
    · rintro ⟨_, _, rfl, rfl, rfl⟩
      exact ⟨rfl, rfl⟩
    · rintro ⟨rfl, rfl⟩
      exact ⟨(), _, rfl, rfl, rfl⟩
  have same (result : Value) (_ : Nat) :
      approximating.Related (closing result) (closing result) := fun _ => .inr rfl
  refine (finishes_bind_iff callee_approximates same).trans ?_
  exact exists_congr fun result => exists_congr fun last => and_congr_right fun _ => closes

/-- A call of a function binds the arguments, runs what the name stands for in a frame of
its own, and takes the frame off. -/
theorem evaluates_call_function_iff {name : String}
    (resolves : resolve machine name arguments.length =
      .ok (some ⟨.function signature body, routine⟩))
    (permitted : ¬ (signature.returns = .nothing ∧
      machine.current.hasFlags .onlyExpectValue = true)) :
    Evaluates maxDepth (.call span name arguments) machine value after ↔
      machine.depth + 1 < maxDepth ∧ ∃ parameters between result last,
        BindsArguments maxDepth arguments signature.parameters (machine.entered span)
          parameters between ∧
        RunsCallee maxDepth signature body routine
          ((between.mark span).pushFrame (functionFrame signature span parameters)) result last ∧
        value = signature.conclude result ∧ after = last.popFrame.concluded value := by
  rw [← Watching.resolve_entered machine (machine.depth + 1) span] at resolves
  have called (fuel : Nat) :
      (expressionNode (evaluate maxDepth fuel) (execute maxDepth fuel)
        (.call span name arguments) : Action Value) (machine.entered span) =
      (bindArguments (evaluate maxDepth fuel) arguments signature.parameters >>= fun parameters =>
        framed maxDepth signature body routine span parameters fuel : Action Value)
        (machine.entered span) := by
    change Action.andThen (ofExcept (resolve (machine.entered span) name arguments.length)) _
      (machine.entered span) = _
    rw [Machine.entered, resolves]
    change (ite (signature.returns = .nothing ∧
      machine.current.hasFlags .onlyExpectValue = true) _ _ : Action Value) _ = _
    rw [if_neg permitted]
    cases routine <;> rfl
  have node {closed : Machine} :
      NodeYields maxDepth (.call span name arguments) (machine.entered span) value closed ↔
        ∃ parameters between, BindsArguments maxDepth arguments signature.parameters
            (machine.entered span) parameters between ∧
          ∃ result last, RunsCallee maxDepth signature body routine
              ((between.mark span).pushFrame (functionFrame signature span parameters))
              result last ∧ value = signature.conclude result ∧ closed = last.popFrame := by
    unfold NodeYields Finishes
    simp only [called]
    refine (finishes_bind_iff (bindArguments_approximates maxDepth · arguments
      signature.parameters) framed_approximates).trans ?_
    exact exists_congr fun parameters => exists_congr fun between => and_congr_right fun _ =>
      finishes_framed_iff
  rw [evaluates_iff]
  constructor
  · rintro ⟨shallow, closed, runs, rfl⟩
    obtain ⟨parameters, between, binds, result, last, inFrame, rfl, rfl⟩ := node.mp runs
    exact ⟨shallow, parameters, between, result, last, binds, inFrame, rfl, rfl⟩
  · rintro ⟨shallow, parameters, between, result, last, binds, runs, rfl, rfl⟩
    exact ⟨shallow, _, node.mpr ⟨parameters, between, binds, result, last, runs, rfl, rfl⟩, rfl⟩

end Calls

/-! ## Main statement -/

/-- Wherever the value of a call is used, but for the arguments of functions, a call of a
function without a result is refused: the node that uses it is halted on the machine that
the call began on, with no frame opened.  An argument of a function is refused if and only
if the flag of an expected value is set in the frame where the function itself is called;
otherwise the callee is run and yields nothing. -/
theorem calls_without_results_are_refused_where_used {maxDepth : Nat} {machine reached : Machine}
    {span : Span} {name : String} {arguments : List Expression} {signature : FunctionSignature}
    {body : Statement} {routine : Option Routine} (underway : machine.Underway)
    (resolves : resolve reached name arguments.length =
      .ok (some ⟨.function signature body, routine⟩))
    (noResult : signature.returns = .nothing) :
    (∀ node, machine.depth + 1 < maxDepth →
      Uses maxDepth (machine.entered node.span) node (.call span name arguments) reached →
      ∃ reason after, Refuses maxDepth reached span reason after ∧
        node.Halts maxDepth machine reason after) ∧
    (∀ call, machine.PassesArgument maxDepth call (.call span name arguments) reached →
      if machine.current.hasFlags .onlyExpectValue = true then
        ∃ reason after, Refuses maxDepth reached span reason after ∧
          Halts (fun fuel => evaluate maxDepth fuel call) machine reason after
      else
        ∀ value after, Evaluates maxDepth (.call span name arguments) reached value after ↔
          reached.depth + 1 < maxDepth ∧ ∃ parameters between result last,
            BindsArguments maxDepth arguments signature.parameters (reached.entered span)
              parameters between ∧
            RunsCallee maxDepth signature body routine
              ((between.mark span).pushFrame (functionFrame signature span parameters))
              result last ∧
            value = .nothing ∧ after = last.popFrame.concluded .nothing) := by
  have calls : reached.CallsForNothing name arguments :=
    ⟨⟨signature, body, routine, resolves, noResult⟩⟩
  obtain ⟨reason, after, refuses⟩ := Refuses.exists maxDepth reached span
  constructor
  · intro node shallow uses
    have isOpen : reached.current.scopes ≠ [] :=
      Machine.isOpen_of_shape_eq uses.shape_eq underway.isOpen
    exact ⟨reason, after, refuses, uses.halts shallow (calls.halts_usedValue isOpen refuses)⟩
  · intro call passes
    have sameFlags := passes.hasFlags .onlyExpectValue
    split
    · next expects =>
      have halts := calls.halts (sameFlags.trans expects) refuses
      exact ⟨reason, after, refuses, passes.halts halts⟩
    · next unexpecting =>
      intro value after
      rw [evaluates_call_function_iff resolves (by simp [sameFlags, unexpecting])]
      simp only [FunctionSignature.conclude, noResult, if_true]
      constructor
      · rintro ⟨shallow, parameters, between, result, last, binds, runs, rfl, rfl⟩
        exact ⟨shallow, parameters, between, result, last, binds, runs, rfl, rfl⟩
      · rintro ⟨shallow, parameters, between, result, last, binds, runs, rfl, rfl⟩
        exact ⟨shallow, parameters, between, result, last, binds, runs, rfl, rfl⟩

/-- In a program that has just started, `NOT CALL Print WITH TRUE` is halted before anything
is printed, but `CALL Print WITH CALL Print WITH TRUE` prints the argument, and then nothing. -/
theorem negated_print_is_refused :
    let place : Span := .firstCharacter
    let prints : Expression := .call place "Print" [.literal place (.fact true)]
    let print : FunctionSignature :=
      ⟨.beforeSource, "Print", false, [Routine.parameter false .text "t"], .nothing⟩
    let inside : Machine := Machine.initial.entered place
    (∃ reason after, Refuses 9 inside place reason after ∧
      (Node.expression (.unary place .not prints)).Halts 9 Machine.initial reason after ∧
      after.emitted = #[]) ∧
    (∃ after parameters between result last, Evaluates 9 prints inside .nothing after ∧
      BindsArguments 9 [.literal place (.fact true)] print.parameters (inside.entered place)
        parameters between ∧
      RunsCallee 9 print (.empty .beforeSource) (some .print)
        ((between.mark place).pushFrame (functionFrame print place parameters)) result last ∧
      after = last.popFrame.concluded .nothing ∧ after.emitted = #[.line "TRUE"]) := by
  intro place prints print inside
  have underway : Machine.initial.Underway :=
    .program (.start Limits.standard) 0 (.empty place) List.mem_cons_self rfl
  have resolves : resolve inside "Print" 1 =
      .ok (some ⟨.function print (.empty .beforeSource), some .print⟩) := rfl
  obtain ⟨used, argued⟩ := @calls_without_results_are_refused_where_used 9 Machine.initial inside
    place "Print" [.literal place (.fact true)] print _ _ underway resolves rfl
  obtain ⟨reason, after, refuses, halts⟩ :=
    used (.expression (.unary place .not prints)) (by decide) .operand
  have passes : Machine.initial.PassesArgument 9 (.call place "Print" [prints]) prints inside :=
    ⟨by decide, place, "Print", [], [], print, _, _, [], rfl, rfl, by decide, by decide,
      bindsArguments_nil_iff.mpr ⟨rfl, rfl⟩⟩
  have evaluates : Evaluates 9 prints inside .nothing _ := ⟨9, rfl⟩
  have runs := argued (.call place "Print" [prints]) passes
  rw [if_neg (by decide)] at runs
  obtain ⟨-, parameters, between, result, last, binds, runs, -, ends⟩ := (runs _ _).mp evaluates
  refine ⟨⟨reason, after, refuses, halts, ?_⟩,
    ⟨_, parameters, between, result, last, evaluates, binds, runs, ends, rfl⟩⟩
  cases refuses <;> rfl

end Plainspoken
