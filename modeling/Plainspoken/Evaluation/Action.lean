import Plainspoken.State.Machine

/-!
# Actions

An action runs on a machine.  It finishes with a result, or it is halted by
`Quit` or by a failure, or the fuel of the evaluation is exhausted.  A halt
leaves the machine as it was at that moment.

Evaluation is written in terms of a few steps on a machine, for every monad
that has them.  Programs run in the monad of actions; another monad can follow
the same steps and tell more about them.
-/

namespace Plainspoken

/-- Why a run stops early. -/
inductive Halt where
  /-- The program asked for it. -/
  | quit
  | failed (cause : RuntimeCause)
  deriving DecidableEq

/-- How an action ends. -/
inductive Outcome (α : Type) where
  | finished (result : α) (machine : Machine)
  | halted (halt : Halt) (machine : Machine)
  /-- The fuel of the evaluation did not suffice to tell. -/
  | exhausted

@[inline]
def Outcome.mapMachine {α : Type} (outcome : Outcome α) (change : Machine → Machine) :
    Outcome α :=
  match outcome with
  | .finished result machine => .finished result (change machine)
  | .halted halt machine => .halted halt (change machine)
  | .exhausted => .exhausted

/-- The steps on a machine that evaluation is made of. -/
class Stepping (M : Type → Type) extends Monad M where
  /-- Reads something off the machine. -/
  read {α : Type} : (Machine → α) → M α
  /-- Changes the machine. -/
  update : (Machine → Machine) → M Unit
  /-- Stops early. -/
  halt {α : Type} : Halt → M α
  /-- Runs out of fuel. -/
  exhaust {α : Type} : M α
  /-- Does something and then changes the machine, however it ended. -/
  andFinally {α : Type} : M α → (Machine → Machine) → M α

namespace Stepping

variable {M : Type → Type} [Stepping M] {α : Type}

@[inline]
def fail (cause : RuntimeCause) : M α :=
  halt (.failed cause)

/-- The result of a computation that may fail. -/
@[inline]
def ofExcept : Except RuntimeCause α → M α
  | .ok result => return result
  | .error cause => fail cause

/-- The result that has to be there. -/
@[inline]
def ofOption (cause : RuntimeCause) : Option α → M α
  | some result => return result
  | none => fail cause

end Stepping

/-- Something done on a machine. -/
def Action (α : Type) : Type :=
  Machine → Outcome α

namespace Action

variable {α β : Type}

@[inline]
def succeed (result : α) : Action α :=
  fun machine => .finished result machine

/-- Does one action and then the one that its result selects. -/
@[inline]
def andThen (first : Action α) (second : α → Action β) : Action β :=
  fun machine =>
    match first machine with
    | .finished result machine => second result machine
    | .halted halt machine => .halted halt machine
    | .exhausted => .exhausted

@[inline]
instance : Stepping Action where
  pure := succeed
  bind := andThen
  read view := fun machine => .finished (view machine) machine
  update change := fun machine => .finished () (change machine)
  halt reason := fun machine => .halted reason machine
  exhaust := fun _ => .exhausted
  andFinally action change := fun machine => (action machine).mapMachine change

end Action

end Plainspoken
