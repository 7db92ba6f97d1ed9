import Plainspoken.Proofs.Judgements
import Plainspoken.Proofs.Reachability

/-!
# What every step of an evaluation maintains

A relation between machines is maintained if it is a preorder that every change made
by an evaluation respects.  Closing a scope or a frame is not a change on its own: it
ends what its opening began, and all that is known is how the machine before the end
relates to the one just opened.

A maintained relation relates the machine on which an evaluation starts to every
machine that it passes through, however it ends.  A property that is inherited
along such a relation is therefore an invariant.
-/

namespace Plainspoken

open Stepping Evaluation

/-- A preorder on machines that every change made by an evaluation respects. -/
structure Machine.Maintained (related : Machine → Machine → Prop) : Prop where
  refl (machine : Machine) : related machine machine
  trans {first second third : Machine} (firstSecond : related first second)
    (secondThird : related second third) : related first third
  /-- Levels are counted, a value is remembered and something is emitted. -/
  noted (machine : Machine) (depth : Nat) (lastValue : Value) (emitted : Transcript) :
    related machine ⟨machine.stack, depth, lastValue, emitted⟩
  marked (machine : Machine) (span : Span) : related machine (machine.mark span)
  flagsSet (machine : Machine) (flags : Flags) : related machine (machine.setFlags flags)
  flagsUnset (machine : Machine) (flags : Flags) : related machine (machine.unsetFlags flags)
  scopeOpened (machine : Machine) {scope : Scope} (opened : scope.Opened) :
    related machine (machine.pushScope scope)
  scopeClosed {machine after : Machine} {scope : Scope} (opened : scope.Opened)
    (inside : related (machine.pushScope scope) after) : related machine after.popScope
  frameOpened (machine : Machine) {frame : Frame} (opened : frame.Opened) :
    related machine (machine.pushFrame frame)
  frameClosed {machine after : Machine} {frame : Frame} (opened : frame.Opened)
    (inside : related (machine.pushFrame frame) after) : related machine after.popFrame
  /-- A value is stored where a variable that may be assigned lives, cast to its type. -/
  stored (machine : Machine) {site : Site} {binding : Variable}
    (found : machine.stack.binding? site = some binding)
    (assignable : binding.declarator.isMutable = true) (value : Value) :
    related machine (machine.store site (value.cast binding.declarator.type))
  variableDeclared (machine : Machine) {binding : Variable} {frame : Frame}
    (fresh : binding.Declared) (declares : machine.current.declareVariable binding = .ok frame) :
    related machine (machine.modifyCurrent fun _ => frame)
  /-- The frame that a declaration leaves is kept also where it fails. -/
  callableDeclared (machine : Machine) {declared : Callable}
    (free : machine.stack.globalFrame.checkRoutine declared.name declared.arity = .ok ()) :
    related machine (machine.modifyCurrent fun _ => (machine.current.declareCallable declared).2)

/-- The machine on which the action starts is related to every machine passed. -/
def Tracing.Maintains {α : Type} (related : Machine → Machine → Prop) (traced : Tracing α) :
    Prop :=
  ∀ machine, traced.Keeps (related machine) machine

namespace Machine.Maintained

open Tracing

variable {related : Machine → Machine → Prop} (maintained : Machine.Maintained related)

include maintained

theorem adjusts {machine after : Machine} (adjusts : machine.Adjusts after) :
    related machine after := by
  cases adjusts with
  | noted depth lastValue emitted => exact maintained.noted machine depth lastValue emitted
  | marked span => exact maintained.marked machine span
  | flagsSet flags => exact maintained.flagsSet machine flags
  | flagsUnset flags => exact maintained.flagsUnset machine flags
  | stored assigns value =>
      exact maintained.stored machine assigns.found assigns.assignable value
  | variableDeclared fresh declares => exact maintained.variableDeclared machine fresh declares
  | callableDeclared free => exact maintained.callableDeclared machine free

/-- What is done second starts on the machine that the first action left. -/
theorem bindAt {α β : Type} {first : Tracing α} {second : α → Tracing β} {machine : Machine}
    (firstKeeps : first.Keeps (related machine) machine)
    (secondKeeps : ∀ result between, first.action machine = .finished result between →
      (second result).Keeps (related between) between) :
    (first >>= second).Keeps (related machine) machine := by
  refine firstKeeps.bind fun result between finishes middle => ?_
  exact (secondKeeps result between finishes).mono fun _ later => maintained.trans middle later

theorem inScopeAt {α : Type} {running : Tracing α} {machine : Machine} {scope : Scope}
    (opened : scope.Opened)
    (runs : running.Keeps (related (machine.pushScope scope)) (machine.pushScope scope)) :
    Keeps (related machine) (do
      Stepping.update (·.pushScope scope)
      Stepping.andFinally running (·.popScope)) machine := by
  have opens := maintained.scopeOpened machine opened
  refine Keeps.bind (.update opens) fun _ between updates _ => ?_
  cases updates
  -- the machine inside is related to the one just opened, which is what closing needs
  refine runs.andFinally_mono ?_ ?_
  · intro _ inside
    exact maintained.trans opens inside
  · intro _ inside
    exact maintained.scopeClosed opened inside

theorem inFrameAt {α β : Type} {running : Tracing α} {machine : Machine} {frame : Frame}
    (opened : frame.Opened) (result : α → β)
    (runs : running.Keeps (related (machine.pushFrame frame)) (machine.pushFrame frame)) :
    Keeps (related machine) (do
      Stepping.update (·.pushFrame frame)
      let value ← running
      Stepping.update (·.popFrame)
      return result value) machine := by
  have opens := maintained.frameOpened machine opened
  refine Keeps.bind (.update opens) fun _ between updates _ => ?_
  cases updates
  refine (runs.mono fun _ later => maintained.trans opens later).bind
    fun value after finishes _ => ?_
  have related : related (machine.pushFrame frame) after := by
    have left := runs.left
    change ((running.action) (machine.pushFrame frame)).Leaves _ at left
    rw [finishes] at left
    exact left
  have closes := maintained.frameClosed opened related
  exact Keeps.bind (.update closes) fun _ _ updates _ => by
    cases updates
    exact .pure _ closes

/-- That every machine passed is related to the one an action starts on is a judgement. -/
def judgement : Judgement where
  Holds traced machine := traced.Keeps (related machine) machine
  pure result machine := .pure result (maintained.refl machine)
  read view machine := .read view (maintained.refl machine)
  halt reason machine := .halt reason (maintained.refl machine)
  exhaust _ := .exhaust
  bindAt := maintained.bindAt
  updateAt adjusts := .update (maintained.adjusts adjusts)
  andFinallyAt holds adjusts := holds.andFinally fun after before =>
    maintained.trans before (maintained.adjusts (adjusts after))
  inScopeAt := maintained.inScopeAt
  inFrameAt := maintained.inFrameAt

end Machine.Maintained

/-! ## Whole evaluations -/

section Evaluations

open Tracing

variable {related : Machine → Machine → Prop} (maintained : Machine.Maintained related)

include maintained

/-- A maintained relation relates the start of an evaluation to every machine that
it passes through. -/
theorem evaluation_maintains (maxDepth fuel : Nat) :
    (∀ expression, (evaluate maxDepth fuel expression : Tracing Value).Maintains related) ∧
    (∀ statement, (execute maxDepth fuel statement : Tracing Flow).Maintains related) ∧
    (∀ test body, (executeRounds maxDepth fuel test body : Tracing Flow).Maintains related) :=
  maintained.judgement.evaluation maxDepth fuel

/-- What is inherited along a maintained relation is an invariant. -/
theorem Machine.Maintained.invariant {property : Machine → Prop}
    (initial : property .initial)
    (inherited : ∀ machine after, related machine after → property machine → property after) :
    Machine.Invariant property where
  initial := initial
  emitted transcript holds := inherited _ _ (maintained.noted _ _ _ transcript) holds
  executed maxDepth fuel statement machine holds :=
    ((evaluation_maintains maintained maxDepth fuel).2.1 statement machine).mono
      fun after later => inherited machine after later holds
  evaluated maxDepth fuel expression machine holds :=
    ((evaluation_maintains maintained maxDepth fuel).1 expression machine).mono
      fun after later => inherited machine after later holds

end Evaluations

end Plainspoken
