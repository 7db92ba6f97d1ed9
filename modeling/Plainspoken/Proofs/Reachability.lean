import Plainspoken.Proofs.Tracing
import Plainspoken.Session

/-!
# Machines that a session passes through

A session is reached from a fresh one by building, running and resetting, and by
performing statements and expressions, however they end.  A machine is passed if
a session rests on it or if it occurs in the middle of an evaluation there.

What holds of the first machine and is kept by every evaluation holds of all
machines passed.
-/

namespace Plainspoken

/-! ## Runs -/

/-- A run that ends has finished or quit, or it has failed.  The machine is fresh
afterwards, except for what has been emitted. -/
theorem Session.run?_cases {session after : Session} {fuel : Nat} {program : Statement}
    {result : Except RuntimeError Unit} (built : session.program = some program)
    (runs : session.run? fuel = some (result, after)) :
    (∃ machine,
      ((∃ flow, (execute session.limits.maxDepth fuel program : Action Flow) session.machine =
          .finished flow machine) ∨
        (execute session.limits.maxDepth fuel program : Action Flow) session.machine =
          .halted .quit machine) ∧
      result = .ok () ∧ after = { session with machine := machine.reset }) ∨
    (∃ cause machine,
      (execute session.limits.maxDepth fuel program : Action Flow) session.machine =
        .halted (.failed cause) machine ∧
      result = .error (machine.locate cause) ∧
      after = { session with machine := (machine.unwind cause).reset }) := by
  obtain ⟨limits, held, machine⟩ := session
  cases built
  unfold Session.run? at runs
  dsimp only at runs ⊢
  split at runs
  · next flow machine finished =>
    cases runs
    exact .inl ⟨machine, .inl ⟨flow, finished⟩, rfl, rfl⟩
  · next machine quits =>
    cases runs
    exact .inl ⟨machine, .inr quits, rfl, rfl⟩
  · next cause machine fails =>
    cases runs
    exact .inr ⟨cause, machine, fails, rfl, rfl⟩
  · cases runs

/-- A run leaves the session as it is, if there is no program, or on a fresh machine. -/
theorem Session.run?_resets {session after : Session} {fuel : Nat}
    {result : Except RuntimeError Unit} (runs : session.run? fuel = some (result, after)) :
    after = session ∨ ∃ machine : Machine, after = { session with machine := machine.reset } := by
  rcases Option.eq_none_or_eq_some session.program with unbuilt | ⟨program, built⟩
  · rw [Session.run?, unbuilt] at runs
    cases runs
    exact .inl rfl
  · rcases Session.run?_cases built runs with
      ⟨machine, -, -, isAfter⟩ | ⟨cause, machine, -, -, isAfter⟩
    · exact .inr ⟨machine, isAfter⟩
    · exact .inr ⟨machine.unwind cause, isAfter⟩

/-! ## Sessions and machines -/

/-- The sessions that a sequence of requests leads to. -/
inductive Session.Reached : Session → Prop where
  | start (limits : Limits) : Reached (.start limits)
  | build {session : Session} (reached : session.Reached) (source : String) :
      Reached (session.build source).2
  | reset {session : Session} (reached : session.Reached) : Reached session.reset
  | run {session after : Session} {fuel : Nat} {result : Except RuntimeError Unit}
      (reached : session.Reached) (runs : session.run? fuel = some (result, after)) :
      Reached after
  | perform {session : Session} {fuel : Nat} {statements : List Statement}
      {performance : Session.Performance} {machine : Machine} (reached : session.Reached)
      (performs : Session.performOn? session.limits.maxDepth fuel statements session.machine =
        some (performance, machine)) :
      Reached { session with machine := machine }
  | evaluate {session after : Session} {fuel : Nat} {expression : Expression}
      {result : Except Halt Value} (reached : session.Reached)
      (evaluates : session.evaluate? fuel expression = some (result, after)) : Reached after
  | takeEmitted {session : Session} (reached : session.Reached) :
      Reached session.takeEmitted.2

/-- The machines that a session rests on or passes through in an evaluation,
also in one that never ends. -/
inductive Machine.Passed : Machine → Prop where
  | resting {session : Session} (reached : session.Reached) : Passed session.machine
  | executing {session : Session} {fuel : Nat} {statement : Statement} {between : Machine}
      (reached : session.Reached)
      (member : between ∈ ((execute session.limits.maxDepth fuel statement : Tracing Flow)
        session.machine).passed) :
      Passed between
  | evaluating {session : Session} {fuel : Nat} {expression : Expression} {between : Machine}
      (reached : session.Reached)
      (member : between ∈ ((evaluate session.limits.maxDepth fuel expression : Tracing Value)
        session.machine).passed) :
      Passed between

/-- A property of machines that holds at the start, does not depend on what has
been emitted, and is kept by every evaluation. -/
structure Machine.Invariant (property : Machine → Prop) : Prop where
  initial : property Machine.initial
  emitted {machine : Machine} (transcript : Transcript) (holds : property machine) :
    property { machine with emitted := transcript }
  executed (maxDepth fuel : Nat) (statement : Statement) {machine : Machine}
    (holds : property machine) :
    (execute maxDepth fuel statement : Tracing Flow).Keeps property machine
  evaluated (maxDepth fuel : Nat) (expression : Expression) {machine : Machine}
    (holds : property machine) :
    (evaluate maxDepth fuel expression : Tracing Value).Keeps property machine

namespace Machine.Invariant

variable {property : Machine → Prop} (invariant : Machine.Invariant property)

include invariant

theorem reset (machine : Machine) : property machine.reset :=
  invariant.emitted _ invariant.initial

theorem execute_leaves (maxDepth fuel : Nat) (statement : Statement) {machine : Machine}
    (holds : property machine) :
    ((execute maxDepth fuel statement : Action Flow) machine).Leaves property := by
  rw [← Tracing.action_execute]
  exact (invariant.executed maxDepth fuel statement holds).left

private theorem evaluate_leaves (maxDepth fuel : Nat) (expression : Expression) {machine : Machine}
    (holds : property machine) :
    ((evaluate maxDepth fuel expression : Action Value) machine).Leaves property := by
  rw [← Tracing.action_evaluate]
  exact (invariant.evaluated maxDepth fuel expression holds).left

theorem performOn? (maxDepth fuel : Nat) {statements : List Statement}
    {machine after : Machine} {performance : Session.Performance} (holds : property machine)
    (performs : Session.performOn? maxDepth fuel statements machine =
      some (performance, after)) : property after := by
  induction statements generalizing machine performance with
  | nil =>
      cases performs
      exact holds
  | cons statement statements ih =>
      have left := invariant.execute_leaves maxDepth fuel statement holds
      rw [Session.performOn?] at performs
      split at performs
      · next flow between finished =>
        rw [finished] at left
        obtain ⟨⟨rest, ending⟩, restPerforms, same⟩ := Option.map_eq_some_iff.mp performs
        cases same
        exact ih left restPerforms
      · next halt between halted =>
        rw [halted] at left
        cases performs
        exact left
      · cases performs

theorem run? {session after : Session} {fuel : Nat} {result : Except RuntimeError Unit}
    (holds : property session.machine) (runs : session.run? fuel = some (result, after)) :
    property after.machine := by
  rcases Session.run?_resets runs with rfl | ⟨machine, rfl⟩
  · exact holds
  · exact invariant.reset machine

theorem evaluate? {session after : Session} {fuel : Nat} {expression : Expression}
    {result : Except Halt Value} (holds : property session.machine)
    (evaluates : session.evaluate? fuel expression = some (result, after)) :
    property after.machine := by
  have left := invariant.evaluate_leaves session.limits.maxDepth fuel expression holds
  unfold Session.evaluate? at evaluates
  dsimp only at evaluates
  split at evaluates
  · next value between finished =>
    rw [finished] at left
    cases evaluates
    exact left
  · next halt between halted =>
    rw [halted] at left
    cases evaluates
    exact left
  · cases evaluates

theorem build {session : Session} (holds : property session.machine) (source : String) :
    property (session.build source).2.machine := by
  unfold Session.build
  split
  · exact holds
  · exact invariant.emitted _ holds

/-- An invariant holds of every session that is reached. -/
theorem of_reached {session : Session} (reached : session.Reached) :
    property session.machine := by
  induction reached with
  | start limits => exact invariant.initial
  | build reached source ih => exact invariant.build ih source
  | reset reached ih => exact invariant.reset _
  | run reached runs ih => exact invariant.run? ih runs
  | perform reached performs ih => exact invariant.performOn? _ _ ih performs
  | evaluate reached evaluates ih => exact invariant.evaluate? ih evaluates
  | takeEmitted reached ih => exact invariant.emitted _ ih

/-- An invariant holds of every machine that is passed. -/
theorem of_passed {machine : Machine} (passed : machine.Passed) : property machine := by
  cases passed with
  | resting reached => exact invariant.of_reached reached
  | executing reached member =>
      have holds := invariant.of_reached reached
      exact (invariant.executed _ _ _ holds).passed machine member
  | evaluating reached member =>
      have holds := invariant.of_reached reached
      exact (invariant.evaluated _ _ _ holds).passed machine member

end Machine.Invariant

end Plainspoken
