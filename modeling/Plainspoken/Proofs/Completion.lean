import Mathlib.Order.Defs.Unbundled
import Plainspoken.Evaluation.Statement

/-!
# What holds when an action finishes

An action ensures a property of its result and of the machine it leaves if both
have it whenever the action finishes.  Each step of evaluation has a rule that
reduces what it ensures to what the rest ensures, so that a composed action is
taken apart from its first step to its last.

An action stays within a relation if it finishes, whenever it does, on a machine
related to the one it started on.  Where the relation is a preorder, an action
stays within it as soon as its steps do.
-/

namespace Plainspoken

namespace Action

open Stepping

variable {α β : Type}

/-- Whenever the action finishes on the machine, its result and the machine it
leaves have the property. -/
def Ensures (action : Action α) (machine : Machine) (property : α → Machine → Prop) : Prop :=
  ∀ result after, action machine = .finished result after → property result after

theorem Ensures.mono {action : Action α} {machine : Machine}
    {weaker stronger : α → Machine → Prop}
    (ensured : action.Ensures machine stronger)
    (implied : ∀ result after, stronger result after → weaker result after) :
    action.Ensures machine weaker :=
  fun result after finished => implied result after (ensured result after finished)

@[simp]
theorem ensures_pure (result : α) (machine : Machine) (property : α → Machine → Prop) :
    (pure result : Action α).Ensures machine property ↔ property result machine := by
  constructor
  · intro ensured
    exact ensured result machine rfl
  · intro holds result' after finished
    cases finished
    exact holds

@[simp]
theorem ensures_bind (first : Action α) (second : α → Action β) (machine : Machine)
    (property : β → Machine → Prop) :
    (first >>= second).Ensures machine property ↔
      first.Ensures machine fun result after => (second result).Ensures after property := by
  constructor
  · intro ensured middle between firstFinished result after secondFinished
    apply ensured result after
    change andThen first second machine = _
    simp only [andThen, firstFinished, secondFinished]
  · intro ensured result after finished
    change andThen first second machine = _ at finished
    unfold andThen at finished
    split at finished
    · next middle between firstFinished =>
        exact ensured middle between firstFinished result after finished
    · cases finished
    · cases finished

@[simp]
theorem ensures_read (view : Machine → α) (machine : Machine)
    (property : α → Machine → Prop) :
    (read view : Action α).Ensures machine property ↔ property (view machine) machine :=
  ensures_pure (view machine) machine property

@[simp]
theorem ensures_update (change : Machine → Machine) (machine : Machine)
    (property : Unit → Machine → Prop) :
    (update change : Action Unit).Ensures machine property ↔ property () (change machine) :=
  ensures_pure () (change machine) property

@[simp]
theorem ensures_halt (reason : Halt) (machine : Machine) (property : α → Machine → Prop) :
    (halt reason : Action α).Ensures machine property := by
  intro result after finished
  cases finished

@[simp]
theorem ensures_exhaust (machine : Machine) (property : α → Machine → Prop) :
    (exhaust : Action α).Ensures machine property := by
  intro result after finished
  cases finished

@[simp]
theorem ensures_andFinally (action : Action α) (change : Machine → Machine)
    (machine : Machine) (property : α → Machine → Prop) :
    (andFinally action change).Ensures machine property ↔
      action.Ensures machine fun result after => property result (change after) := by
  constructor
  · intro ensured result after finished
    apply ensured
    change (action machine).mapMachine change = _
    rw [finished]
    rfl
  · intro ensured result after finished
    change (action machine).mapMachine change = _ at finished
    cases ended : action machine with
    | finished inner between =>
        rw [ended] at finished
        cases finished
        exact ensured _ between ended
    | halted reason between =>
        rw [ended] at finished
        cases finished
    | exhausted =>
        rw [ended] at finished
        cases finished

@[simp]
theorem ensures_fail (cause : RuntimeCause) (machine : Machine)
    (property : α → Machine → Prop) :
    (fail cause : Action α).Ensures machine property :=
  ensures_halt (.failed cause) machine property

@[simp]
theorem ensures_ofExcept (computed : Except RuntimeCause α) (machine : Machine)
    (property : α → Machine → Prop) :
    (ofExcept computed : Action α).Ensures machine property ↔
      ∀ result, computed = .ok result → property result machine := by
  cases computed <;> simp [Stepping.ofExcept]

@[simp]
theorem ensures_ofOption (cause : RuntimeCause) (found : Option α) (machine : Machine)
    (property : α → Machine → Prop) :
    (ofOption cause found : Action α).Ensures machine property ↔
      ∀ result, found = some result → property result machine := by
  cases found <;> simp [ofOption]

/-- Storing at a site changes nothing but the variable that lives there. -/
@[simp]
theorem ensures_storeAt (site : Site) (value : Value) (machine : Machine)
    (property : Unit → Machine → Prop) :
    (storeAt site value : Action Unit).Ensures machine property ↔
      ((machine.stack.binding? site).isSome = true → property () (machine.store site value)) := by
  unfold storeAt
  by_cases lives : (machine.stack.binding? site).isSome = true <;> simp [lives]

@[simp]
theorem ensures_valueOf (name : String) (machine : Machine)
    (property : Value → Machine → Prop) :
    (valueOf name : Action Value).Ensures machine property ↔
      ∀ value, machine.valueOf name = .ok value → property value machine := by
  simp [valueOf]

/-- The node of a given place, one level deeper. -/
@[simp]
theorem ensures_enter (maxDepth : Nat) (span : Span) (machine : Machine)
    (property : Unit → Machine → Prop) :
    (enter maxDepth span : Action Unit).Ensures machine property ↔
      (machine.depth + 1 < maxDepth →
        property () { machine with depth := machine.depth + 1 }) := by
  unfold enter
  by_cases within : machine.depth + 1 < maxDepth
  · simp [within, Nat.not_le.mpr within]
  · simp [within, Nat.not_lt.mp within]

@[simp]
theorem ensures_leave (machine : Machine) (property : Unit → Machine → Prop) :
    (leave : Action Unit).Ensures machine property ↔
      property () { machine with depth := machine.depth - 1 } := by
  simp [leave]

/-! ## Runs that finish -/

section Runs

variable {machine after : Machine} {result : α}

@[simp]
theorem finished_pure (value : α) :
    (pure value : Action α) machine = .finished result after ↔
      value = result ∧ machine = after := by
  change Outcome.finished value machine = _ ↔ _
  rw [Outcome.finished.injEq]

@[simp]
theorem finished_bind (first : Action β) (second : β → Action α) :
    (first >>= second) machine = .finished result after ↔
      ∃ middle between, first machine = .finished middle between ∧
        second middle between = .finished result after := by
  change andThen first second machine = _ ↔ _
  unfold andThen
  cases first machine with
  | finished middle between =>
      constructor
      · intro finished
        exact ⟨middle, between, rfl, finished⟩
      · rintro ⟨_, _, same, finished⟩
        cases same
        exact finished
  | halted reason between => simp
  | exhausted => simp

@[simp]
theorem finished_read (view : Machine → α) :
    (read view : Action α) machine = .finished result after ↔
      view machine = result ∧ machine = after :=
  finished_pure (view machine)

@[simp]
theorem finished_update (change : Machine → Machine) (done : Unit) :
    (update change : Action Unit) machine = .finished done after ↔ change machine = after := by
  change Outcome.finished () (change machine) = _ ↔ _
  rw [Outcome.finished.injEq]
  simp

@[simp]
theorem finished_halt (reason : Halt) :
    (halt reason : Action α) machine = .finished result after ↔ False := by
  constructor
  · intro finished
    cases finished
  · exact False.elim

@[simp]
theorem finished_fail (cause : RuntimeCause) :
    (fail cause : Action α) machine = .finished result after ↔ False :=
  finished_halt (.failed cause)

@[simp]
theorem finished_andFinally (action : Action α) (change : Machine → Machine) :
    (andFinally action change) machine = .finished result after ↔
      ∃ between, action machine = .finished result between ∧ change between = after := by
  change (action machine).mapMachine change = _ ↔ _
  cases action machine with
  | finished inner between =>
      simp only [Outcome.mapMachine, Outcome.finished.injEq]
      constructor
      · rintro ⟨same, changed⟩
        exact ⟨between, ⟨same, rfl⟩, changed⟩
      · rintro ⟨_, ⟨same, rfl⟩, changed⟩
        exact ⟨same, changed⟩
  | halted reason between => simp [Outcome.mapMachine]
  | exhausted => simp [Outcome.mapMachine]

@[simp]
theorem finished_enter (maxDepth : Nat) (span : Span) (done : Unit) :
    (enter maxDepth span : Action Unit) machine = .finished done after ↔
      machine.depth + 1 < maxDepth ∧ { machine with depth := machine.depth + 1 } = after := by
  change (if decide (maxDepth ≤ machine.depth + 1) = true then fail (.stackOverflow span)
    else pure () : Action Unit) { machine with depth := machine.depth + 1 } = _ ↔ _
  by_cases deep : maxDepth ≤ machine.depth + 1
  · rw [if_pos (decide_eq_true deep), finished_fail]
    constructor
    · exact False.elim
    · rintro ⟨within, -⟩
      omega
  · have within : machine.depth + 1 < maxDepth := by omega
    rw [if_neg (by simpa using deep), finished_pure]
    exact ⟨fun ⟨_, same⟩ => ⟨within, same⟩, fun ⟨_, same⟩ => ⟨rfl, same⟩⟩

@[simp]
theorem finished_leave (done : Unit) :
    (leave : Action Unit) machine = .finished done after ↔
      { machine with depth := machine.depth - 1 } = after := by
  simp [leave]

end Runs

/-! ## Actions within a relation -/

/-- Whenever the action finishes, the machine it leaves is related to the one
it started on. -/
def Within (related : Machine → Machine → Prop) (action : Action α) : Prop :=
  ∀ machine, action.Ensures machine fun _ after => related machine after

namespace Within

variable {related : Machine → Machine → Prop} {action : Action α}

theorem mono {weaker : Machine → Machine → Prop} (within : action.Within related)
    (implied : ∀ before after, related before after → weaker before after) :
    action.Within weaker :=
  fun machine => (within machine).mono fun _ after => implied machine after

theorem pure [Std.Refl related] (result : α) :
    (pure result : Action α).Within related := by
  intro machine
  simpa using refl_of related machine

theorem bind [IsTrans Machine related] {first : Action α} {second : α → Action β}
    (firstWithin : first.Within related) (secondWithin : ∀ result, (second result).Within related) :
    (first >>= second).Within related := by
  intro machine
  rw [ensures_bind]
  intro middle between firstFinished result after secondFinished
  exact trans_of related (firstWithin machine middle between firstFinished)
    (secondWithin middle between result after secondFinished)

theorem read [Std.Refl related] (view : Machine → α) :
    (Stepping.read view : Action α).Within related := by
  intro machine
  simpa using refl_of related machine

theorem update {change : Machine → Machine} (changed : ∀ machine, related machine (change machine)) :
    (Stepping.update change : Action Unit).Within related := by
  intro machine
  simpa using changed machine

theorem halt (reason : Halt) : (Stepping.halt reason : Action α).Within related :=
  fun machine => ensures_halt reason machine _

theorem exhaust : (Stepping.exhaust : Action α).Within related :=
  fun machine => ensures_exhaust machine _

theorem fail (cause : RuntimeCause) : (Stepping.fail cause : Action α).Within related :=
  halt (.failed cause)

theorem ofExcept [Std.Refl related] (computed : Except RuntimeCause α) :
    (Stepping.ofExcept computed : Action α).Within related := by
  cases computed with
  | ok result => exact pure result
  | error cause => exact fail cause

theorem ofOption [Std.Refl related] (cause : RuntimeCause) (found : Option α) :
    (Stepping.ofOption cause found : Action α).Within related := by
  cases found with
  | some result => exact pure result
  | none => exact fail cause

theorem valueOf [Std.Refl related] (name : String) :
    (Stepping.valueOf name : Action Value).Within related := by
  intro machine
  rw [ensures_valueOf]
  intro _ _
  exact refl_of related machine

end Within

end Action

end Plainspoken
