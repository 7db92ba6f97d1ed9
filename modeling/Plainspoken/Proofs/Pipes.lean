import Mathlib.Data.List.Chain
import Plainspoken.Proofs.ExpressionRules

/-!
# What flows out of a pipe

A value flows into a pipe, through the part for values that are there, and past the part
for nothing.  What should flow out is the value of the part evaluated last, and the value
that flowed in where neither part has to be evaluated.

That last case is not what evaluation does: without a first part, a pipe into which a value
flows yields nothing.  In a chain of alternatives the first value that is there is lost
therefore, and the alternative after the next one is evaluated again.
-/

namespace Plainspoken

open List (Forall₂)
open Stepping Evaluation

/-- The part of a pipe for nothing yields its value, and nothing where it is left out. -/
inductive Recovers (maxDepth : Nat) :
    Option Expression → Machine → Value → Machine → Prop where
  | absent (machine : Machine) : Recovers maxDepth none machine .nothing machine
  | present {failure : Expression} {machine after : Machine} {value : Value}
      (evaluates : Evaluates maxDepth failure machine value after) :
      Recovers maxDepth (some failure) machine value after

/-- What should flow out of the parts of a pipe, by the value that flows into it and the
parts that there are. -/
inductive FlowsOut (maxDepth : Nat) (failure : Option Expression) :
    Value → Option Expression → Machine → Value → Machine → Prop where
  | lacking {success : Option Expression} {machine after : Machine} {value : Value}
      (recovers : Recovers maxDepth failure machine value after) :
      FlowsOut maxDepth failure .nothing success machine value after
  | passing {carried : Value} (there : carried ≠ .nothing) (machine : Machine) :
      FlowsOut maxDepth failure carried none machine carried machine
  | succeeding {carried value : Value} {success : Expression} {machine after : Machine}
      (there : carried ≠ .nothing) (evaluates : Evaluates maxDepth success machine value after)
      (stillThere : value ≠ .nothing) :
      FlowsOut maxDepth failure carried (some success) machine value after
  | recovering {carried value : Value} {success : Expression} {machine between after : Machine}
      (there : carried ≠ .nothing)
      (evaluates : Evaluates maxDepth success machine .nothing between)
      (recovers : Recovers maxDepth failure between value after) :
      FlowsOut maxDepth failure carried (some success) machine value after

/-- What does flow out of a pipe in place of what should. -/
def drained (carried : Value) (success : Option Expression) (outflow : Value) : Value :=
  if carried ≠ .nothing ∧ success = none then .nothing else outflow

section Parts

variable {maxDepth : Nat} {machine after : Machine} {value carried : Value}
  {success failure : Option Expression}

/-- The parts of a pipe with the value that flows into it, whatever the fuel. -/
def PartsYield (maxDepth : Nat) (carried : Value) (success failure : Option Expression) :
    Machine → Value → Machine → Prop :=
  Finishes fun fuel => pipeParts (evaluate maxDepth fuel) carried success failure

theorem recovers_iff :
    Recovers maxDepth failure machine value after ↔
      Finishes (fun fuel => pipeFailure (evaluate maxDepth fuel) failure) machine value after := by
  cases failure with
  | none =>
      constructor
      · rintro ⟨⟩
        exact ⟨0, rfl⟩
      · rintro ⟨fuel, finished⟩
        obtain ⟨rfl, rfl⟩ := (Action.finished_pure _).mp finished
        exact .absent machine
  | some failure =>
      constructor
      · rintro ⟨⟩
        assumption
      · intro evaluates
        exact .present evaluates

/-- With a first part, the value that is there flows through it. -/
theorem partsYield_some_iff {success : Expression} (there : carried ≠ .nothing) :
    PartsYield maxDepth carried (some success) failure machine value after ↔
      ∃ first between, Evaluates maxDepth success machine first between ∧
        if first = .nothing then Recovers maxDepth failure between value after
        else value = first ∧ after = between := by
  have isThere : ¬ (carried.isNothing = true) := by simpa using there
  have failureStep (fuel : Nat) : approximating.Related
      (pipeFailure (evaluate maxDepth fuel) failure)
      (pipeFailure (evaluate maxDepth (fuel + 1)) failure) :=
    approximating.simulation.pipeFailure (evaluate_approximates maxDepth fuel) failure
  unfold PartsYield
  simp only [pipeParts, if_neg isThere]
  rw [finishes_bind_iff (evaluate_approximates maxDepth · success)]
  · refine exists_congr fun first => exists_congr fun between => and_congr_right fun _ => ?_
    by_cases lacks : first = .nothing
    · subst lacks
      exact recovers_iff.symm
    · have isThere : ¬ (first.isNothing = true) := by simpa using lacks
      simp only [if_neg isThere, if_neg lacks]
      refine (finishes_const_iff _).trans ((Action.finished_pure first).trans ?_)
      exact and_congr eq_comm eq_comm
  · intro first fuel
    split
    · exact failureStep fuel
    · exact approximating.pure first

/-- The parts yield what should flow out, but nothing in place of a value that neither of
them is there for. -/
theorem partsYield_iff :
    PartsYield maxDepth carried success failure machine value after ↔
      ∃ outflow, FlowsOut maxDepth failure carried success machine outflow after ∧
        value = drained carried success outflow := by
  by_cases lacks : carried = .nothing
  · subst lacks
    have parts : PartsYield maxDepth .nothing success failure machine value after ↔
        Recovers maxDepth failure machine value after := recovers_iff.symm
    rw [parts]
    constructor
    · intro recovers
      exact ⟨value, .lacking recovers, by simp [drained]⟩
    · rintro ⟨outflow, flows, rfl⟩
      cases flows with
      | lacking recovers => simpa [drained] using recovers
      | passing there | succeeding there | recovering there => exact absurd rfl there
  · cases success with
    | none =>
        have isThere : ¬ (carried.isNothing = true) := by simpa using lacks
        have parts : PartsYield maxDepth carried none failure machine value after ↔
            .nothing = value ∧ machine = after := by
          unfold PartsYield
          simp only [pipeParts, if_neg isThere]
          exact (finishes_const_iff _).trans (Action.finished_pure _)
        rw [parts]
        constructor
        · rintro ⟨rfl, rfl⟩
          exact ⟨carried, .passing lacks machine, by simp [drained, lacks]⟩
        · rintro ⟨outflow, flows, rfl⟩
          cases flows with
          | lacking => exact absurd rfl lacks
          | passing => exact ⟨by simp [drained, lacks], rfl⟩
    | some success =>
        rw [partsYield_some_iff lacks]
        constructor
        · rintro ⟨first, between, evaluates, rest⟩
          split at rest
          · next lacksNow =>
            subst lacksNow
            exact ⟨value, .recovering lacks evaluates rest, by simp [drained]⟩
          · next stillThere =>
            obtain ⟨rfl, rfl⟩ := rest
            exact ⟨value, .succeeding lacks evaluates stillThere, by simp [drained]⟩
        · rintro ⟨outflow, flows, rfl⟩
          cases flows with
          | lacking => exact absurd rfl lacks
          | succeeding _ evaluates stillThere =>
              exact ⟨outflow, after, evaluates, by simp [drained, stillThere]⟩
          | recovering _ evaluates recovers =>
              exact ⟨.nothing, _, evaluates, by simpa [drained] using recovers⟩

end Parts

/-! ## Pipes -/

/-- The machine on which the parts of a pipe are evaluated: what flowed in is bound in a
scope of its own. -/
def Machine.openPipe (machine : Machine) (first : Expression) (carried : Value) : Machine :=
  machine.pushScope (Scope.empty.insertVariable (pipeVariable first.span carried))

/-- A pipe evaluates its first operand, binds the value in a fresh innermost scope around
its parts, and closes it. -/
theorem evaluates_pipe_iff {maxDepth : Nat} {span : Span} {first : Expression}
    {success failure : Option Expression} {machine after : Machine} {value : Value} :
    Evaluates maxDepth (.pipe span first success failure) machine value after ↔
      machine.depth + 1 < maxDepth ∧ ∃ carried between last,
        Yields maxDepth first (machine.entered span) carried between ∧
        PartsYield maxDepth carried success failure (between.openPipe first carried) value last ∧
        after = last.popScope.concluded value := by
  have partsStep (carried : Value) (fuel : Nat) : approximating.Related
      (pipeParts (evaluate maxDepth fuel) carried success failure)
      (pipeParts (evaluate maxDepth (fuel + 1)) carried success failure) :=
    approximating.simulation.pipeParts (evaluate_approximates maxDepth fuel) carried success
      failure
  have node {closed : Machine} :
      NodeYields maxDepth (.pipe span first success failure) (machine.entered span) value closed ↔
        ∃ carried between, Yields maxDepth first (machine.entered span) carried between ∧
          ∃ last, PartsYield maxDepth carried success failure (between.openPipe first carried)
            value last ∧ closed = last.popScope := by
    refine (finishes_bind_iff (usedValue_approximates maxDepth · first) ?_).trans ?_
    · intro carried fuel
      exact approximating.bind (approximating.update _) fun _ =>
        approximating.andFinally _ (partsStep carried fuel)
    · refine exists_congr fun carried => exists_congr fun between => and_congr_right fun _ => ?_
      let opened (fuel : Nat) : Action Value := fun machine =>
        (pipeParts (evaluate maxDepth fuel) carried success failure : Action Value)
          (machine.openPipe first carried)
      exact finishes_andFinally_iff opened _
  rw [evaluates_iff]
  constructor
  · rintro ⟨shallow, closed, runs, rfl⟩
    obtain ⟨carried, between, yields, last, parts, rfl⟩ := node.mp runs
    exact ⟨shallow, carried, between, last, yields, parts, rfl⟩
  · rintro ⟨shallow, carried, between, last, yields, parts, rfl⟩
    exact ⟨shallow, _, node.mpr ⟨carried, between, yields, last, parts, rfl⟩, rfl⟩

/-! ## Chains of alternatives -/

/-- The pipes that `first OTHERWISE other OTHERWISE ...` stands for. -/
def Expression.alternatives (first : Expression) (others : List Expression) : Expression :=
  others.foldl (fun chain other => .pipe first.span chain none (some other)) first

/-- The operands of a chain and what they evaluated to, if they were evaluated at all: one
is evaluated if and only if the one before it was not, or yielded nothing. -/
structure Answers (maxDepth : Nat) (operands : List Expression) (answers : List (Option Value)) :
    Prop where
  evaluated : Forall₂ (fun operand answer => ∀ value ∈ answer, ∃ machine after,
    Evaluates maxDepth operand machine value after) operands answers
  asked : answers.IsChain fun earlier later =>
    later.isSome = true ↔ earlier.getD .nothing = .nothing
  begun : ∃ value, answers.head? = some (some value)

namespace Answers

variable {maxDepth : Nat}

theorem single {first : Expression} {machine after : Machine} {value : Value}
    (evaluates : Evaluates maxDepth first machine value after) :
    Answers maxDepth [first] [some value] where
  evaluated := by
    refine .cons ?_ .nil
    rintro _ ⟨⟩
    exact ⟨machine, after, evaluates⟩
  asked := .singleton _
  begun := ⟨value, rfl⟩

theorem append {operands : List Expression} {answers : List (Option Value)}
    (answered : Answers maxDepth operands answers) {other : Expression} {last answer : Option Value}
    (isLast : answers.getLast? = some last)
    (asked : answer.isSome = true ↔ last.getD .nothing = .nothing)
    (evaluated : ∀ value ∈ answer, ∃ machine after, Evaluates maxDepth other machine value after) :
    Answers maxDepth (operands ++ [other]) (answers ++ [answer]) where
  evaluated := List.rel_append answered.evaluated (.cons evaluated .nil)
  asked := by
    refine List.isChain_append.mpr ⟨answered.asked, .singleton _, ?_⟩
    rintro earlier isEarlier later isLater
    rw [isLast] at isEarlier
    cases isEarlier
    cases isLater
    exact asked
  begun := by
    obtain ⟨value, isFirst⟩ := answered.begun
    refine ⟨value, ?_⟩
    rw [List.head?_append, isFirst]
    rfl

end Answers

/-- A chain of alternatives yields what its last operand yields, and nothing where that
one is not evaluated. -/
theorem Evaluates.exists_answers {maxDepth : Nat} {first : Expression} (others : List Expression)
    {machine after : Machine} {value : Value}
    (evaluates : Evaluates maxDepth (first.alternatives others) machine value after) :
    ∃ answers last, Answers maxDepth (first :: others) answers ∧
      answers.getLast? = some last ∧ value = last.getD .nothing := by
  induction others using List.reverseRecOn generalizing machine after value with
  | nil => exact ⟨[some value], some value, .single evaluates, rfl, rfl⟩
  | append_singleton others other ih =>
      have isPipe : first.alternatives (others ++ [other]) =
          .pipe first.span (first.alternatives others) none (some other) := by
        rw [Expression.alternatives, List.foldl_append]
        rfl
      rw [isPipe] at evaluates
      obtain ⟨-, carried, between, inner, yields, parts, rfl⟩ := evaluates_pipe_iff.mp evaluates
      obtain ⟨_, chain, -⟩ := yields_iff.mp yields
      obtain ⟨answers, last, answered, isLast, rfl⟩ := ih chain
      obtain ⟨outflow, flows, rfl⟩ := partsYield_iff.mp parts
      generalize isCarried : last.getD .nothing = carried at flows yields
      cases flows with
      | lacking recovers =>
          cases recovers with
          | present evaluates =>
              refine ⟨answers ++ [some outflow], some outflow, ?_, by simp, by simp [drained]⟩
              refine answered.append isLast (by simp [isCarried]) ?_
              rintro _ ⟨⟩
              exact ⟨_, _, evaluates⟩
      | passing there =>
          refine ⟨answers ++ [none], none, ?_, by simp, by simp [drained, there]⟩
          refine answered.append isLast (by simp [isCarried, there]) ?_
          rintro _ ⟨⟩

/-- A pipe evaluates its first operand, binds the value in a fresh innermost scope, and
yields what should flow out of its parts, with one exception: where there is no first part
and the value that flows in is there, it yields nothing instead of that value.  Hence in a
chain of alternatives an operand is evaluated if and only if the one before it was not
evaluated or yielded nothing, and the chain yields what its last operand does. -/
theorem pipes_yield_what_flows_out {maxDepth : Nat} {machine after : Machine} {value : Value} :
    (∀ span first success failure,
      Evaluates maxDepth (.pipe span first success failure) machine value after ↔
        machine.depth + 1 < maxDepth ∧ ∃ carried between outflow last,
          Yields maxDepth first (machine.entered span) carried between ∧
          FlowsOut maxDepth failure carried success (between.openPipe first carried)
            outflow last ∧
          value = (if carried ≠ .nothing ∧ success = none then .nothing else outflow) ∧
          after = last.popScope.concluded value) ∧
    (∀ first others, Evaluates maxDepth (Expression.alternatives first others) machine value after →
      ∃ answers last, Answers maxDepth (first :: others) answers ∧
        answers.getLast? = some last ∧ value = last.getD .nothing) := by
  refine ⟨fun span first success failure => ?_,
    fun first others evaluates => evaluates.exists_answers others⟩
  rw [evaluates_pipe_iff]
  refine and_congr_right fun _ => ?_
  constructor
  · rintro ⟨carried, between, last, yields, parts, ends⟩
    obtain ⟨outflow, flows, isValue⟩ := partsYield_iff.mp parts
    exact ⟨carried, between, outflow, last, yields, flows, isValue, ends⟩
  · rintro ⟨carried, between, outflow, last, yields, flows, isValue, ends⟩
    exact ⟨carried, between, last, yields, partsYield_iff.mpr ⟨outflow, flows, isValue⟩, ends⟩

/-- In `TRUE OTHERWISE "b" OTHERWISE "c"` the first operand yields a value and the second one
is not evaluated, but the third one is, and the chain yields its value.  The inner pipe of
the chain has yielded nothing, although the value `TRUE` should flow out of it. -/
theorem chain_loses_first_value :
    let place : Span := .firstCharacter
    let first : Expression := .literal place (.fact true)
    let second : Expression := .literal place (.text "b")
    let third : Expression := .literal place (.text "c")
    (∃ after answers last,
      Evaluates 9 (first.alternatives [second, third]) Machine.initial (.text "c") after ∧
      Answers 9 [first, second, third] answers ∧ answers.getLast? = some last ∧
      Value.text "c" = last.getD .nothing) ∧
    (∃ after carried between outflow last,
      Evaluates 9 (.pipe place first none (some second)) Machine.initial .nothing after ∧
      Yields 9 first (Machine.initial.entered place) carried between ∧
      FlowsOut 9 (some second) carried none (between.openPipe first carried) outflow last ∧
      carried = .fact true ∧ outflow = .fact true) := by
  intro place first second third
  have chain : Evaluates 9 (first.alternatives [second, third]) Machine.initial (.text "c") _ :=
    ⟨9, rfl⟩
  have pipe : Evaluates 9 (.pipe place first none (some second)) Machine.initial .nothing _ :=
    ⟨9, rfl⟩
  obtain ⟨answers, last, answered, isLast, isValue⟩ := pipes_yield_what_flows_out.2 _ _ chain
  obtain ⟨-, carried, between, outflow, inner, yields, flows, -, -⟩ :=
    (pipes_yield_what_flows_out.1 _ _ _ _).mp pipe
  have isCarried : carried = .fact true := by
    obtain ⟨_, evaluates, -⟩ := yields_iff.mp yields
    exact (evaluates_literal_iff.mp evaluates).2.1
  refine ⟨⟨_, answers, last, chain, answered, isLast, isValue⟩,
    ⟨_, carried, between, outflow, inner, pipe, yields, flows, isCarried, ?_⟩⟩
  cases flows with
  | lacking => cases isCarried
  | passing => exact isCarried

end Plainspoken
