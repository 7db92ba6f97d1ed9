import Plainspoken.Proofs.Moments
import Plainspoken.Proofs.Scopes

/-!
# What references lead to

Scopes and frames are opened and closed in balance.  What is open when an evaluation starts
stays open as long as it goes on, also where it is halted, and when it finishes nothing more
is open.  So the frame that a call closes is its own, and there is always a frame below it.

The storage that a reference leads to is in a frame below its own, and it is therefore there
as long as the reference is.
-/

namespace Plainspoken

open Stepping Evaluation

/-! ## Balance -/

/-- What is done closes only the scopes and frames that it has opened, and all of them when it
finishes. -/
structure Tracing.Balances {α : Type} (traced : Tracing α) (machine : Machine) : Prop where
  passed : ∀ between ∈ (traced machine).passed, machine.Retains between
  halted : ∀ reason after, (traced machine).outcome = .halted reason after →
    machine.Retains after
  finished : ∀ result after, (traced machine).outcome = .finished result after →
    after.shape = machine.shape

theorem Tracing.Keeps.balances {α : Type} {traced : Tracing α} {machine : Machine}
    (keeps : traced.Keeps machine.Retains machine)
    (finished : ∀ result after, traced.action machine = .finished result after →
      after.shape = machine.shape) : traced.Balances machine where
  passed := keeps.passed
  halted reason after ends := by
    have left := keeps.left
    rw [ends] at left
    exact left
  finished := finished

theorem evaluate_balances (maxDepth fuel : Nat) (expression : Expression) (machine : Machine) :
    (evaluate maxDepth fuel expression : Tracing Value).Balances machine := by
  have maintains := (evaluation_maintains Machine.Retains.maintained maxDepth fuel).1 expression
  refine (maintains machine).balances fun value after finishes => ?_
  rw [Tracing.action_evaluate] at finishes
  exact (evaluate_alike maxDepth fuel expression machine value after finishes).extended.shape_eq

theorem execute_balances (maxDepth fuel : Nat) (statement : Statement) (machine : Machine) :
    (execute maxDepth fuel statement : Tracing Flow).Balances machine := by
  have maintains := (evaluation_maintains Machine.Retains.maintained maxDepth fuel).2.1 statement
  refine (maintains machine).balances fun flow after finishes => ?_
  rw [Tracing.action_execute] at finishes
  exact (execute_extended maxDepth fuel statement machine flow after finishes).shape_eq

/-- The frame that is closed behind a body is the one that was opened for it. -/
theorem Machine.shape_popFrame_of_shape_eq {machine after : Machine} {frame : Frame}
    (same : after.shape = (machine.pushFrame frame).shape) :
    after.stack.callers ≠ [] ∧ after.popFrame.shape = machine.shape := by
  obtain ⟨⟨current, callers⟩, depth, lastValue, emitted⟩ := after
  obtain ⟨-, below⟩ := List.cons.inj same
  cases callers with
  | nil => cases below
  | cons caller callers => exact ⟨List.cons_ne_nil _ _, below⟩

/-! ## Storage -/

namespace Machine.Live

variable {machine : Machine} (live : machine.Live)

include live

/-- What a live reference leads to, spelled out. -/
theorem reference_target {height : Nat} {frame : Frame} {scope : Scope} {binding : Variable}
    {site : Site} (frameFound : machine.stack.frame? height = some frame)
    (scopeMember : scope ∈ frame.scopes) (member : binding ∈ scope.bindings)
    (refers : binding.reference = some site) :
    site.frame < height ∧ ∃ below scope target,
      machine.stack.frame? site.frame = some below ∧ below.scope? site.scope = some scope ∧
      scope.binding? site.name = some target ∧ target.reference = none ∧
      target.declarator.isMutable = true := by
  rw [CallStack.frame?_eq] at frameFound
  have inFrame : binding ∈ frame.bindings := List.mem_flatMap.mpr ⟨scope, scopeMember, member⟩
  obtain ⟨lower, below, target, belowFound, targetFound, owns, assignable⟩ :=
    ReferencesLive.owned_of_get? live frameFound inFrame refers
  obtain ⟨targetScope, targetScopeFound, inScope⟩ := Option.bind_eq_some_iff.mp targetFound
  rw [← CallStack.frame?_eq] at belowFound
  exact ⟨lower, below, targetScope, target, belowFound, targetScopeFound, inScope, owns,
    assignable⟩

/-- The storage found for an assignment is still there when its value has been
evaluated. -/
theorem storeAt_finishes {name : String} {site : Site}
    (found : machine.stack.find? name = some site) {maxDepth fuel : Nat} {value : Expression}
    {result : Value} {after : Machine}
    (evaluates : (usedValue (evaluate maxDepth fuel) value : Action Value) machine =
      .finished result after) (stored : Value) :
    (storeAt (machine.stack.owner site) stored : Action Unit) after =
      .finished () (after.store (machine.stack.owner site) stored) := by
  have alike := usedValue_alike (evaluate_alike maxDepth fuel) value machine result after evaluates
  have lives : (after.stack.binding? (machine.stack.owner site)).isSome = true := by
    rw [isSome_of_optionRel (alike.stack.binding? _)]
    exact live.isSome_binding?_owner found
  change (if (after.stack.binding? (machine.stack.owner site)).isSome = true then
    update _ else fail _ : Action Unit) after = _
  rw [if_pos lives]
  rfl

end Machine.Live

/-- Of every machine that a session passes through an evaluation closes only what it has opened
itself, so that there is a frame below each one that is closed.  Every reference of a variable
leads to a frame below its own, where a variable that may be assigned owns the storage.  So a
name that is found has storage, and an assignment that has found its storage can write to it
once its value has been evaluated. -/
theorem references_never_dangle (machine : Machine) (passed : machine.Passed) :
    machine.stack.frames ≠ [] ∧
    (∀ (maxDepth fuel : Nat) (expression : Expression),
      (evaluate maxDepth fuel expression : Tracing Value).Balances machine) ∧
    (∀ (maxDepth fuel : Nat) (statement : Statement),
      (execute maxDepth fuel statement : Tracing Flow).Balances machine) ∧
    (∀ (frame : Frame) (maxDepth fuel : Nat) (body : Statement) (flow : Flow) (after : Machine),
      (execute maxDepth fuel body : Action Flow) (machine.pushFrame frame) =
        .finished flow after →
        after.stack.callers ≠ [] ∧ after.popFrame.shape = machine.shape) ∧
    (∀ (height : Nat) (frame : Frame) (scope : Scope) (binding : Variable) (site : Site),
      machine.stack.frame? height = some frame → scope ∈ frame.scopes →
      binding ∈ scope.bindings → binding.reference = some site →
        site.frame < height ∧ ∃ below scope target,
          machine.stack.frame? site.frame = some below ∧
          below.scope? site.scope = some scope ∧ scope.binding? site.name = some target ∧
          target.reference = none ∧ target.declarator.isMutable = true) ∧
    (∀ (name : String) (site : Site), machine.stack.find? name = some site →
      (machine.stack.binding? (machine.stack.owner site)).isSome = true) ∧
    (∀ (name : String) (site : Site) (maxDepth fuel : Nat) (value : Expression)
        (result stored : Value) (after : Machine),
      machine.stack.find? name = some site →
      (usedValue (evaluate maxDepth fuel) value : Action Value) machine =
        .finished result after →
        (storeAt (machine.stack.owner site) stored : Action Unit) after =
          .finished () (after.store (machine.stack.owner site) stored)) := by
  have live := live_invariant.of_passed passed
  refine ⟨?_, ?_, ?_, ?_, ?_, ?_, ?_⟩
  · exact List.cons_ne_nil _ _
  · exact fun maxDepth fuel expression => evaluate_balances maxDepth fuel expression machine
  · exact fun maxDepth fuel statement => execute_balances maxDepth fuel statement machine
  · intro frame maxDepth fuel body flow after finishes
    have extended := execute_extended maxDepth fuel body _ flow after finishes
    exact Machine.shape_popFrame_of_shape_eq extended.shape_eq
  · intro height frame scope binding site frameFound scopeMember member refers
    exact live.reference_target frameFound scopeMember member refers
  · intro name site found
    exact live.isSome_binding?_owner found
  · intro name site maxDepth fuel value result stored after found evaluates
    exact live.storeAt_finishes found evaluates stored

/-- In the middle of a call whose parameter refers to a variable of the program:
the reference leads to that variable, which an assignment to the parameter can
write.  Executing the program once more from there opens and closes in balance. -/
theorem reference_parameter_never_dangles :
    let place : Span := .firstCharacter
    let program : Statement := .compound place
      [.variable ⟨place, true, .fact, "x"⟩ (some (.literal place (.fact true))),
        .function ⟨place, "F", false, [⟨place, true, .fact, "p"⟩], .nothing⟩
          (.compound place []),
        .expression (.call place "F" [.identifier place "x"])]
    let owner : Site := ⟨0, 2, "x"⟩
    ∃ machine ∈ ((execute Limits.standard.maxDepth 9 program : Tracing Flow) .initial).passed,
      machine.Passed ∧ machine.stack.frames ≠ [] ∧
      (execute Limits.standard.maxDepth 9 program : Tracing Flow).Balances machine ∧
      machine.current.bindings.map Variable.reference = [some owner] ∧
      (owner.frame < 1 ∧ ∃ below scope target, machine.stack.frame? owner.frame = some below ∧
        below.scope? owner.scope = some scope ∧ scope.binding? owner.name = some target ∧
        target.reference = none ∧ target.declarator.isMutable = true) ∧
      (∃ site, machine.stack.find? "p" = some site ∧
        (machine.stack.binding? (machine.stack.owner site)).isSome = true) ∧
      ∃ result after, (usedValue (evaluate 9 9) (.literal place (.fact false)) : Action Value)
          machine = .finished result after ∧
        (storeAt owner result : Action Unit) after = .finished () (after.store owner result) := by
  intro place program owner
  let assigned : Action Value := usedValue (evaluate 9 9) (.literal place (.fact false))
  let refers (machine : Machine) : Bool :=
    decide (machine.stack.height = 1) &&
    decide (machine.stack.find? "p" = some ⟨1, 0, "p"⟩) &&
    decide (machine.current.bindings.map Variable.reference = [some owner]) &&
    decide (machine.stack.owner ⟨1, 0, "p"⟩ = owner) &&
    (assigned machine).finishesWith fun _ _ => true
  have evaluated : ((execute (Session.start .standard).limits.maxDepth 9 program : Tracing Flow)
      (Session.start .standard).machine).passed.any refers = true := by
    decide +kernel
  obtain ⟨machine, member, holds⟩ := List.any_eq_true.mp evaluated
  simp only [refers, Bool.and_eq_true, decide_eq_true_eq] at holds
  obtain ⟨⟨⟨⟨height, named⟩, parameters⟩, owned⟩, finishes⟩ := holds
  have passed : machine.Passed := .executing (.start .standard) member
  obtain ⟨nonempty, -, balances, -, references, storage, assignments⟩ :=
    references_never_dangle machine passed
  obtain ⟨binding, inFrame, refers⟩ := List.mem_map.mp (parameters ▸ List.mem_singleton_self _)
  obtain ⟨scope, scopeMember, bindingMember⟩ := List.mem_flatMap.mp inFrame
  obtain ⟨result, after, evaluates, -⟩ := Outcome.exists_of_finishesWith finishes
  refine ⟨machine, member, passed, nonempty, balances _ _ _, parameters, ?_,
    ⟨_, named, storage "p" _ named⟩, result, after, evaluates, ?_⟩
  · exact references 1 machine.current scope binding owner (by rw [← height]; exact if_pos rfl)
      scopeMember bindingMember refers
  · have stores := assignments "p" _ 9 9 _ result result after named evaluates
    rwa [owned] at stores

end Plainspoken
