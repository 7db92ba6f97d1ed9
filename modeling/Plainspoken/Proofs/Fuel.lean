import Plainspoken.Proofs.Correspondence

/-!
# Fuel

More fuel changes nothing but evaluations that ran out of it.  What an
expression or a statement does is therefore a relation in which fuel does not
occur: it does something if it does so with some amount of fuel, and there is at
most one thing that it does.
-/

namespace Plainspoken

open Stepping Evaluation

/-- The relation between an action and one that does the same with more fuel. -/
def approximating : Correspondence Action Action where
  Related less more := ∀ machine, less machine = .exhausted ∨ less machine = more machine
  pure _ _ := .inr rfl
  bind {_ _ first first' second second'} firstRelated secondRelated machine := by
    change Action.andThen first second machine = _ ∨
      Action.andThen first second machine = Action.andThen first' second' machine
    unfold Action.andThen
    rcases firstRelated machine with exhausted | same
    · exact .inl (by rw [exhausted])
    · rw [← same]
      cases first machine with
      | finished result between => exact secondRelated result between
      | halted reason after => exact .inr rfl
      | exhausted => exact .inl rfl
  read _ _ := .inr rfl
  update _ _ := .inr rfl
  halt _ _ := .inr rfl
  exhaust _ := .inl rfl
  andFinally {_ action action'} change related machine := by
    change (action machine).mapMachine change = _ ∨
      (action machine).mapMachine change = (action' machine).mapMachine change
    rcases related machine with exhausted | same
    · exact .inl (by rw [exhausted]; rfl)
    · exact .inr (by rw [same])

theorem evaluation_approximates (maxDepth fuel : Nat) :
    (∀ expression, approximating.Related (evaluate maxDepth fuel expression)
      (evaluate maxDepth (fuel + 1) expression)) ∧
    (∀ statement, approximating.Related (execute maxDepth fuel statement)
      (execute maxDepth (fuel + 1) statement)) ∧
    (∀ test body, approximating.Related (executeRounds maxDepth fuel test body)
      (executeRounds maxDepth (fuel + 1) test body)) := by
  induction fuel with
  | zero => exact ⟨fun _ _ => .inl rfl, fun _ _ => .inl rfl, fun _ _ _ => .inl rfl⟩
  | succ fuel ih =>
      obtain ⟨evaluated, executed, repeated⟩ := ih
      refine ⟨fun expression => ?_, fun statement => ?_, fun test body => ?_⟩
      · exact approximating.expressionStep evaluated executed maxDepth expression
      · exact approximating.statementStep evaluated executed repeated maxDepth statement
      · exact approximating.loopStep evaluated executed repeated test body

theorem approximating_trans {α : Type} {first second third : Action α}
    (firstSecond : approximating.Related first second)
    (secondThird : approximating.Related second third) :
    approximating.Related first third := by
  intro machine
  rcases firstSecond machine with exhausted | same
  · exact .inl exhausted
  · rw [same]
    exact secondThird machine

/-- What a family of actions does with less fuel it also does with more. -/
theorem approximating_of_le {α : Type} {family : Nat → Action α}
    (step : ∀ fuel, approximating.Related (family fuel) (family (fuel + 1))) {less more : Nat}
    (enough : less ≤ more) : approximating.Related (family less) (family more) := by
  induction enough with
  | refl => exact fun _ => .inr rfl
  | step _ ih => exact approximating_trans ih (step _)

/-! ## What is done with some amount of fuel -/

/-- Some amount of fuel suffices to finish. -/
def Finishes {α : Type} (family : Nat → Action α) (machine : Machine) (result : α)
    (after : Machine) : Prop :=
  ∃ fuel, family fuel machine = .finished result after

section Families

variable {α : Type} {family : Nat → Action α}
  (step : ∀ fuel, approximating.Related (family fuel) (family (fuel + 1)))

include step

theorem Finishes.of_le {machine after : Machine} {result : α} {less more : Nat}
    (finished : family less machine = .finished result after) (enough : less ≤ more) :
    family more machine = .finished result after := by
  rcases approximating_of_le step enough machine with exhausted | same
  · rw [exhausted] at finished
    cases finished
  · rw [← same, finished]

theorem Finishes.unique {machine first second : Machine} {firstResult secondResult : α}
    (firstFinishes : Finishes family machine firstResult first)
    (secondFinishes : Finishes family machine secondResult second) :
    firstResult = secondResult ∧ first = second := by
  obtain ⟨less, lessFinished⟩ := firstFinishes
  obtain ⟨more, moreFinished⟩ := secondFinishes
  have together := Finishes.of_le step lessFinished (Nat.le_max_left less more)
  rw [Finishes.of_le step moreFinished (Nat.le_max_right less more)] at together
  cases together
  exact ⟨rfl, rfl⟩

end Families

/-- Evaluating the expression yields the value and leaves the second machine. -/
def Evaluates (maxDepth : Nat) (expression : Expression) : Machine → Value → Machine → Prop :=
  Finishes fun fuel => evaluate maxDepth fuel expression

/-- Executing the statement lets control flow and leaves the second machine. -/
def Executes (maxDepth : Nat) (statement : Statement) : Machine → Flow → Machine → Prop :=
  Finishes fun fuel => execute maxDepth fuel statement

/-- The expression yields a value that is used. -/
def Yields (maxDepth : Nat) (expression : Expression) : Machine → Value → Machine → Prop :=
  Finishes fun fuel => usedValue (evaluate maxDepth fuel) expression

/-- The condition is found to hold or not. -/
def Decides (maxDepth : Nat) (test : Expression) : Machine → Bool → Machine → Prop :=
  Finishes fun fuel => condition (evaluate maxDepth fuel) test

/-- The statements are executed one after another. -/
def ExecutesAll (maxDepth : Nat) (statements : List Statement) :
    Machine → Flow → Machine → Prop :=
  Finishes fun fuel => block (execute maxDepth fuel) statements

section Steps

variable (maxDepth fuel : Nat)

theorem execute_approximates (statement : Statement) :
    approximating.Related (execute maxDepth fuel statement)
      (execute maxDepth (fuel + 1) statement) :=
  (evaluation_approximates maxDepth fuel).2.1 statement

theorem usedValue_approximates (expression : Expression) :
    approximating.Related (usedValue (evaluate maxDepth fuel) expression)
      (usedValue (evaluate maxDepth (fuel + 1)) expression) :=
  approximating.usedValue (evaluation_approximates maxDepth fuel).1 expression

theorem condition_approximates (test : Expression) :
    approximating.Related (condition (evaluate maxDepth fuel) test)
      (condition (evaluate maxDepth (fuel + 1)) test) :=
  approximating.condition (evaluation_approximates maxDepth fuel).1 test

theorem block_approximates (statements : List Statement) :
    approximating.Related (block (execute maxDepth fuel) statements)
      (block (execute maxDepth (fuel + 1)) statements) :=
  approximating.block (evaluation_approximates maxDepth fuel).2.1 statements

end Steps

/-- A statement does at most one thing. -/
theorem Executes.unique {maxDepth : Nat} {statement : Statement}
    {machine first second : Machine} {firstFlow secondFlow : Flow}
    (firstExecutes : Executes maxDepth statement machine firstFlow first)
    (secondExecutes : Executes maxDepth statement machine secondFlow second) :
    firstFlow = secondFlow ∧ first = second :=
  Finishes.unique (fun fuel => execute_approximates maxDepth fuel statement) firstExecutes
    secondExecutes

end Plainspoken
