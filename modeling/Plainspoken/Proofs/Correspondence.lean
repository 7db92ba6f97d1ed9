import Plainspoken.Proofs.Simulation

/-!
# Evaluation in corresponding monads

A correspondence relates what is done in one monad to what is done in another, in
a way that all steps on a machine respect, whatever they read and change.  It is a
simulation of all statements: the same expression or statement is evaluated in
corresponding ways.
-/

namespace Plainspoken

open Stepping Evaluation

/-- A relation between what is done in two monads that every step respects. -/
structure Correspondence (M N : Type → Type) [Stepping M] [Stepping N] where
  Related {α : Type} : M α → N α → Prop
  pure {α : Type} (result : α) : Related (pure result) (pure result)
  bind {α β : Type} {first : M α} {first' : N α} {second : α → M β} {second' : α → N β} :
    Related first first' → (∀ result, Related (second result) (second' result)) →
      Related (first >>= second) (first' >>= second')
  read {α : Type} (view : Machine → α) : Related (read view) (read view)
  update (change : Machine → Machine) : Related (update change) (update change)
  halt {α : Type} (reason : Halt) : Related (halt reason : M α) (halt reason : N α)
  exhaust {α : Type} : Related (exhaust : M α) (exhaust : N α)
  andFinally {α : Type} {action : M α} {action' : N α} (change : Machine → Machine) :
    Related action action' → Related (andFinally action change) (andFinally action' change)

namespace Correspondence

variable {M N : Type → Type} [Stepping M] [Stepping N] (steps : Correspondence M N)

theorem ofExcept {α : Type} (computed : Except RuntimeCause α) :
    steps.Related (Stepping.ofExcept computed : M α) (Stepping.ofExcept computed : N α) := by
  cases computed with
  | ok result => exact steps.pure result
  | error cause => exact steps.halt (.failed cause)

theorem addVariable (binding : Variable) :
    steps.Related (addVariable binding : M Unit) (addVariable binding : N Unit) := by
  refine steps.bind (steps.read _) fun declared => ?_
  cases declared with
  | ok frame => exact steps.update _
  | error cause => exact steps.halt (.failed cause)

theorem declareCallable (declared : Callable) :
    steps.Related (declareCallable declared : M Unit) (declareCallable declared : N Unit) :=
  steps.bind (steps.read _) fun _ => steps.bind (steps.ofExcept _) fun _ =>
    steps.bind (steps.read _) fun _ => steps.bind (steps.update _) fun _ => steps.ofExcept _

/-- A correspondence is a simulation that covers all statements. -/
def simulation : Simulation M N where
  Related := steps.Related
  Covers _ := True
  parts _ _ := trivial
  pure := steps.pure
  bind := steps.bind
  halt := steps.halt
  read _ := steps.read _
  update _ := steps.update _
  andFinally _ related := steps.andFinally _ related
  addVariable := steps.addVariable
  declareCallable _ := steps.declareCallable _
  resolving _ _ _ _ related :=
    steps.bind (steps.read _) fun _ => steps.bind (steps.ofExcept _) fun found =>
      related found fun _ _ => trivial

theorem nests (maxDepth : Nat) : steps.simulation.Nests maxDepth maxDepth where
  enter span := by
    refine steps.bind (steps.update _) fun _ => steps.bind (steps.read _) fun tooDeep => ?_
    split
    · exact steps.halt _
    · exact steps.pure _
  leave := steps.update _
  exhaust := steps.exhaust

section Nodes

variable {evaluate : Expression → M Value} {evaluate' : Expression → N Value}
  {execute : Statement → M Flow} {execute' : Statement → N Flow}
  (evaluated : ∀ expression, steps.Related (evaluate expression) (evaluate' expression))
  (executed : ∀ statement, steps.Related (execute statement) (execute' statement))

include evaluated in
theorem usedValue (expression : Expression) :
    steps.Related (usedValue evaluate expression) (usedValue evaluate' expression) :=
  steps.simulation.usedValue evaluated expression

include evaluated in
theorem condition (expression : Expression) :
    steps.Related (condition evaluate expression) (condition evaluate' expression) :=
  steps.simulation.condition evaluated expression

include evaluated in
theorem bindArguments (arguments : List Expression) (parameters : List Declarator) :
    steps.Related (bindArguments evaluate arguments parameters)
      (bindArguments evaluate' arguments parameters) :=
  steps.simulation.bindArguments evaluated arguments parameters

include executed in
theorem block (statements : List Statement) :
    steps.Related (block execute statements) (block execute' statements) :=
  steps.simulation.block (fun statement _ => executed statement) fun _ _ => trivial

include evaluated executed in
theorem expressionStep (maxDepth : Nat) (expression : Expression) :
    steps.Related (expressionStep evaluate execute maxDepth expression)
      (expressionStep evaluate' execute' maxDepth expression) :=
  (steps.nests maxDepth).expressionStep evaluated (fun statement _ => executed statement)
    expression

include evaluated executed in
theorem loopStep {again : Expression → Statement → M Flow}
    {again' : Expression → Statement → N Flow}
    (repeated : ∀ test body, steps.Related (again test body) (again' test body))
    (test : Expression) (body : Statement) :
    steps.Related (loopStep evaluate execute again test body)
      (loopStep evaluate' execute' again' test body) :=
  steps.simulation.loopStep evaluated (fun statement _ => executed statement) test trivial
    (repeated test body)

include evaluated executed in
theorem statementStep {rounds : Expression → Statement → M Flow}
    {rounds' : Expression → Statement → N Flow}
    (repeated : ∀ test body, steps.Related (rounds test body) (rounds' test body))
    (maxDepth : Nat) (statement : Statement) :
    steps.Related (statementStep evaluate execute rounds maxDepth statement)
      (statementStep evaluate' execute' rounds' maxDepth statement) :=
  (steps.nests maxDepth).statementStep evaluated (fun statement _ => executed statement)
    (fun _ test body _ => repeated test body) trivial

end Nodes

/-! ## Whole evaluations -/

/-- Evaluation respects every correspondence between two monads. -/
theorem evaluation (maxDepth fuel : Nat) :
    (∀ expression, steps.Related (evaluate maxDepth fuel expression)
      (evaluate maxDepth fuel expression)) ∧
    (∀ statement, steps.Related (execute maxDepth fuel statement)
      (execute maxDepth fuel statement)) ∧
    (∀ test body, steps.Related (executeRounds maxDepth fuel test body)
      (executeRounds maxDepth fuel test body)) := by
  obtain ⟨evaluated, executed, repeated⟩ := (steps.nests maxDepth).evaluation fuel
  refine ⟨evaluated, fun statement => executed statement trivial, fun test body => ?_⟩
  exact repeated test.span test body trivial

end Correspondence

end Plainspoken
