import Mathlib.Data.List.Chain
import Plainspoken.Proofs.Correspondence

/-!
# Tracing an evaluation

A traced action records every machine that it passes through: one for each step
that changes the machine, in order, also when it is halted or runs out of fuel
later on.  Apart from that a traced evaluation is the evaluation itself, so its
trace shows the machines between the start and the end of a run.
-/

namespace Plainspoken

open Stepping

/-- The machine that an outcome leaves, if there is one, has a property. -/
def Outcome.Leaves {α : Type} (outcome : Outcome α) (property : Machine → Prop) : Prop :=
  match outcome with
  | .finished _ machine => property machine
  | .halted _ machine => property machine
  | .exhausted => True

theorem Outcome.Leaves.mono {α : Type} {outcome : Outcome α} {stronger property : Machine → Prop}
    (leaves : outcome.Leaves stronger)
    (weakened : ∀ machine, stronger machine → property machine) : outcome.Leaves property := by
  cases outcome with
  | finished result machine => exact weakened machine leaves
  | halted reason machine => exact weakened machine leaves
  | exhausted => trivial

theorem Outcome.leaves_mapMachine {α : Type} (outcome : Outcome α) (change : Machine → Machine)
    (property : Machine → Prop) :
    (outcome.mapMachine change).Leaves property ↔
      outcome.Leaves fun machine => property (change machine) := by
  cases outcome <;> rfl

/-- Whether an action has finished, and a test of its result and its machine holds. -/
def Outcome.finishesWith {α : Type} (outcome : Outcome α) (test : α → Machine → Bool) : Bool :=
  match outcome with
  | .finished result machine => test result machine
  | .halted _ _ => false
  | .exhausted => false

theorem Outcome.exists_of_finishesWith {α : Type} {outcome : Outcome α}
    {test : α → Machine → Bool} (finishes : outcome.finishesWith test = true) :
    ∃ result machine, outcome = .finished result machine ∧ test result machine = true := by
  cases outcome with
  | finished result machine => exact ⟨result, machine, rfl, finishes⟩
  | halted reason machine => cases finishes
  | exhausted => cases finishes

/-- The first of some machines of which a test holds. -/
def Machine.firstOf (test : Machine → Bool) (machines : List Machine) : Machine :=
  (machines.find? test).getD .initial

theorem Machine.firstOf_mem {test : Machine → Bool} {machines : List Machine}
    (holds : machines.any test = true) : firstOf test machines ∈ machines := by
  obtain ⟨machine, found⟩ := Option.isSome_iff_exists.mp
    ((List.find?_isSome).mpr (List.any_eq_true.mp holds))
  rw [firstOf, found]
  exact List.mem_of_find?_eq_some found

/-- The machines that an action passed through, and how it ended. -/
structure Trace (α : Type) where
  passed : List Machine
  outcome : Outcome α

/-- An action that is traced. -/
def Tracing (α : Type) : Type :=
  Machine → Trace α

namespace Tracing

variable {α β : Type}

def andThen (first : Tracing α) (second : α → Tracing β) : Tracing β :=
  fun machine =>
    match first machine with
    | ⟨passed, .finished result between⟩ =>
        ⟨passed ++ (second result between).passed, (second result between).outcome⟩
    | ⟨passed, .halted reason after⟩ => ⟨passed, .halted reason after⟩
    | ⟨passed, .exhausted⟩ => ⟨passed, .exhausted⟩

def finallyChange (action : Tracing α) (change : Machine → Machine) : Tracing α :=
  fun machine =>
    match action machine with
    | ⟨passed, .finished result after⟩ =>
        ⟨passed ++ [change after], .finished result (change after)⟩
    | ⟨passed, .halted reason after⟩ =>
        ⟨passed ++ [change after], .halted reason (change after)⟩
    | ⟨passed, .exhausted⟩ => ⟨passed, .exhausted⟩

instance : Stepping Tracing where
  pure result := fun machine => ⟨[], .finished result machine⟩
  bind := andThen
  read view := fun machine => ⟨[], .finished (view machine) machine⟩
  update change := fun machine => ⟨[change machine], .finished () (change machine)⟩
  halt reason := fun machine => ⟨[], .halted reason machine⟩
  exhaust := fun _ => ⟨[], .exhausted⟩
  andFinally := finallyChange

section Equations

variable {first : Tracing α} {second : α → Tracing β} {machine : Machine} {passed : List Machine}
  {change : Machine → Machine}

private theorem andThen_of_finished {result : α} {between : Machine}
    (ended : first machine = ⟨passed, .finished result between⟩) :
    andThen first second machine =
      ⟨passed ++ (second result between).passed, (second result between).outcome⟩ := by
  simp only [andThen, ended]

private theorem andThen_of_halted {reason : Halt} {after : Machine}
    (ended : first machine = ⟨passed, .halted reason after⟩) :
    andThen first second machine = ⟨passed, .halted reason after⟩ := by
  simp only [andThen, ended]

private theorem andThen_of_exhausted (ended : first machine = ⟨passed, .exhausted⟩) :
    andThen first second machine = ⟨passed, .exhausted⟩ := by
  simp only [andThen, ended]

private theorem finallyChange_of_finished {result : α} {after : Machine}
    (ended : first machine = ⟨passed, .finished result after⟩) :
    finallyChange first change machine =
      ⟨passed ++ [change after], .finished result (change after)⟩ := by
  simp only [finallyChange, ended]

private theorem finallyChange_of_halted {reason : Halt} {after : Machine}
    (ended : first machine = ⟨passed, .halted reason after⟩) :
    finallyChange first change machine =
      ⟨passed ++ [change after], .halted reason (change after)⟩ := by
  simp only [finallyChange, ended]

private theorem finallyChange_of_exhausted (ended : first machine = ⟨passed, .exhausted⟩) :
    finallyChange first change machine = ⟨passed, .exhausted⟩ := by
  simp only [finallyChange, ended]

end Equations

def action (traced : Tracing α) : Action α :=
  fun machine => (traced machine).outcome

theorem action_bind (first : Tracing α) (second : α → Tracing β) :
    (first >>= second).action = first.action >>= fun result => (second result).action := by
  funext machine
  change (andThen first second machine).outcome = Action.andThen _ _ machine
  unfold andThen Action.andThen action
  generalize first machine = trace
  obtain ⟨passed, outcome⟩ := trace
  cases outcome <;> rfl

theorem action_andFinally (traced : Tracing α) (change : Machine → Machine) :
    (andFinally traced change).action = andFinally traced.action change := by
  funext machine
  change (finallyChange traced change machine).outcome = ((traced machine).outcome).mapMachine _
  unfold finallyChange
  generalize traced machine = trace
  obtain ⟨passed, outcome⟩ := trace
  cases outcome <;> rfl

/-- Forgetting the trace respects every step. -/
def forgetting : Correspondence Tracing Action where
  Related traced untraced := traced.action = untraced
  pure _ := rfl
  bind firstRelated secondRelated := by
    rw [action_bind, firstRelated]
    congr
    funext result
    exact secondRelated result
  read _ := rfl
  update _ := rfl
  halt _ := rfl
  exhaust := rfl
  andFinally change related := by
    rw [action_andFinally, related]

/-- A traced evaluation is the evaluation itself. -/
theorem action_evaluate (maxDepth fuel : Nat) (expression : Expression) :
    (evaluate maxDepth fuel expression : Tracing Value).action =
      evaluate maxDepth fuel expression :=
  (forgetting.evaluation maxDepth fuel).1 expression

theorem action_execute (maxDepth fuel : Nat) (statement : Statement) :
    (execute maxDepth fuel statement : Tracing Flow).action =
      execute maxDepth fuel statement :=
  (forgetting.evaluation maxDepth fuel).2.1 statement

theorem action_usedValue (evaluate : Expression → Tracing Value) (expression : Expression) :
    (Evaluation.usedValue evaluate expression).action =
      Evaluation.usedValue (fun inner => (evaluate inner).action) expression :=
  forgetting.usedValue (fun _ => rfl) expression

theorem action_bindArguments (evaluate : Expression → Tracing Value)
    (arguments : List Expression) (parameters : List Declarator) :
    (Evaluation.bindArguments evaluate arguments parameters).action =
      Evaluation.bindArguments (fun inner => (evaluate inner).action) arguments parameters :=
  forgetting.bindArguments (fun _ => rfl) arguments parameters

/-! ## Traces that do not differ -/

section Congruence

variable {machine : Machine}

theorem bind_eq_bind {first first' : Tracing α} {second second' : α → Tracing β}
    (same : first machine = first' machine)
    (sameAfter : ∀ result between, first.action machine = .finished result between →
      second result between = second' result between) :
    (first >>= second) machine = (first' >>= second') machine := by
  change andThen first second machine = andThen first' second' machine
  unfold action at sameAfter
  unfold andThen
  rw [← same]
  generalize first machine = trace at sameAfter
  obtain ⟨passed, outcome⟩ := trace
  cases outcome with
  | finished result between => simp only [sameAfter result between rfl]
  | halted reason after => rfl
  | exhausted => rfl

theorem andFinally_eq_andFinally {traced traced' : Tracing α} {change : Machine → Machine}
    (same : traced machine = traced' machine) :
    andFinally traced change machine = andFinally traced' change machine := by
  change finallyChange traced change machine = finallyChange traced' change machine
  unfold finallyChange
  rw [same]

end Congruence

/-! ## One machine after the other -/

/-- The machine on which a traced action starts and those that it passes, in order. -/
def row (traced : Tracing α) (machine : Machine) : List Machine :=
  machine :: (traced machine).passed

/-- Each machine that a traced action passes is related to the one before it, and the
action ends on the last of them. -/
structure Proceeds (related : Machine → Machine → Prop) (traced : Tracing α)
    (machine : Machine) : Prop where
  row : (traced.row machine).IsChain related
  ends : (traced machine).outcome.Leaves fun after => (traced.row machine).getLast? = some after

namespace Proceeds

variable {related : Machine → Machine → Prop} {machine : Machine}

theorem pure (result : α) : Proceeds related (Pure.pure result : Tracing α) machine :=
  ⟨.singleton machine, rfl⟩

theorem read (view : Machine → α) : Proceeds related (Stepping.read view : Tracing α) machine :=
  ⟨.singleton machine, rfl⟩

theorem halt (reason : Halt) : Proceeds related (Stepping.halt reason : Tracing α) machine :=
  ⟨.singleton machine, rfl⟩

theorem exhaust : Proceeds related (Stepping.exhaust : Tracing α) machine :=
  ⟨.singleton machine, trivial⟩

theorem update {change : Machine → Machine} (holds : related machine (change machine)) :
    Proceeds related (Stepping.update change : Tracing Unit) machine :=
  ⟨List.isChain_pair.mpr holds, rfl⟩

/-- A row goes on where it has ended. -/
theorem append {earlier later : List Machine} {between : Machine}
    (row : (machine :: earlier).IsChain related)
    (ends : (machine :: earlier).getLast? = some between)
    (rest : (between :: later).IsChain related) :
    (machine :: (earlier ++ later)).IsChain related ∧
      (machine :: (earlier ++ later)).getLast? = (between :: later).getLast? := by
  obtain ⟨before, same⟩ := List.getLast?_eq_some_iff.mp ends
  have whole : machine :: (earlier ++ later) = before ++ [between] ++ later := by
    rw [← same, List.cons_append]
  rw [same] at row
  rw [whole]
  refine ⟨row.append_overlap rest (List.cons_ne_nil _ _), ?_⟩
  rw [List.append_assoc]
  exact List.getLast?_append_of_ne_nil before (List.cons_ne_nil between later)

private theorem of_eq {traced : Tracing α} {trace : Trace α} (is : traced machine = trace)
    (row : (machine :: trace.passed).IsChain related)
    (ends : trace.outcome.Leaves fun after => (machine :: trace.passed).getLast? = some after) :
    Proceeds related traced machine := by
  subst is
  exact ⟨row, ends⟩

theorem bind {first : Tracing α} {second : α → Tracing β}
    (firstProceeds : Proceeds related first machine)
    (secondProceeds : ∀ result between, first.action machine = .finished result between →
      Proceeds related (second result) between) :
    Proceeds related (first >>= second) machine := by
  change Proceeds related (andThen first second) machine
  obtain ⟨row, ends⟩ := firstProceeds
  unfold Tracing.row at row ends
  unfold action at secondProceeds
  cases ended : first machine with
  | mk earlier outcome =>
      rw [ended] at row ends secondProceeds
      cases outcome with
      | finished result between =>
          have rest := secondProceeds result between rfl
          obtain ⟨wholeRow, sameEnd⟩ := append row ends rest.row
          exact of_eq (andThen_of_finished ended) wholeRow
            (rest.ends.mono fun after left => sameEnd.trans left)
      | halted reason after => exact of_eq (andThen_of_halted ended) row ends
      | exhausted => exact of_eq (andThen_of_exhausted ended) row trivial

theorem andFinally {traced : Tracing α} {change : Machine → Machine}
    (proceeds : Proceeds related traced machine)
    (holds : ∀ after : Machine, related after (change after)) :
    Proceeds related (Stepping.andFinally traced change) machine := by
  change Proceeds related (finallyChange traced change) machine
  obtain ⟨row, ends⟩ := proceeds
  unfold Tracing.row at row ends
  have last (after : Machine) : [after, change after].IsChain related :=
    List.isChain_pair.mpr (holds after)
  cases ended : traced machine with
  | mk earlier outcome =>
      rw [ended] at row ends
      cases outcome with
      | finished result after =>
          obtain ⟨wholeRow, newEnd⟩ := append row ends (last after)
          exact of_eq (finallyChange_of_finished ended) wholeRow newEnd
      | halted reason after =>
          obtain ⟨wholeRow, newEnd⟩ := append row ends (last after)
          exact of_eq (finallyChange_of_halted ended) wholeRow newEnd
      | exhausted => exact of_eq (finallyChange_of_exhausted ended) row trivial

end Proceeds

/-! ## Properties of all machines passed -/

/-- Every machine passed has a property, and so has the machine that is left. -/
structure Keeps (property : Machine → Prop) (traced : Tracing α) (machine : Machine) : Prop where
  passed : ∀ between ∈ (traced machine).passed, property between
  left : (traced machine).outcome.Leaves property

namespace Keeps

variable {property : Machine → Prop} {machine : Machine}

theorem pure (result : α) (holds : property machine) :
    Keeps property (Pure.pure result : Tracing α) machine :=
  ⟨List.forall_mem_nil property, holds⟩

theorem read (view : Machine → α) (holds : property machine) :
    Keeps property (Stepping.read view : Tracing α) machine :=
  ⟨List.forall_mem_nil property, holds⟩

theorem update {change : Machine → Machine} (holds : property (change machine)) :
    Keeps property (Stepping.update change : Tracing Unit) machine :=
  ⟨List.forall_mem_singleton.mpr holds, holds⟩

theorem halt (reason : Halt) (holds : property machine) :
    Keeps property (Stepping.halt reason : Tracing α) machine :=
  ⟨List.forall_mem_nil property, holds⟩

theorem exhaust : Keeps property (Stepping.exhaust : Tracing α) machine :=
  ⟨List.forall_mem_nil property, trivial⟩

theorem bind {first : Tracing α} {second : α → Tracing β}
    (firstKeeps : Keeps property first machine)
    (secondKeeps : ∀ result between, first.action machine = .finished result between →
      property between → Keeps property (second result) between) :
    Keeps property (first >>= second) machine := by
  change Keeps property (andThen first second) machine
  obtain ⟨passed, left⟩ := firstKeeps
  unfold action at secondKeeps
  cases ended : first machine with
  | mk earlier outcome =>
      simp only [ended] at passed left secondKeeps
      cases outcome with
      | finished result between =>
          have rest := secondKeeps result between rfl left
          constructor <;> rw [andThen_of_finished ended]
          · exact List.forall_mem_append.mpr ⟨passed, rest.passed⟩
          · exact rest.left
      | halted reason after =>
          constructor <;> rw [andThen_of_halted ended]
          · exact passed
          · exact left
      | exhausted =>
          constructor <;> rw [andThen_of_exhausted ended]
          · exact passed
          · trivial

theorem mono {stronger : Machine → Prop} {traced : Tracing α}
    (keeps : Keeps stronger traced machine)
    (weakened : ∀ between, stronger between → property between) :
    Keeps property traced machine :=
  ⟨fun between member => weakened between (keeps.passed between member),
    keeps.left.mono weakened⟩

/-- The last change may rely on more than what is kept afterwards. -/
theorem andFinally_mono {stronger : Machine → Prop} {traced : Tracing α}
    {change : Machine → Machine} (keeps : Keeps stronger traced machine)
    (weakened : ∀ between, stronger between → property between)
    (changed : ∀ after, stronger after → property (change after)) :
    Keeps property (Stepping.andFinally traced change) machine := by
  change Keeps property (finallyChange traced change) machine
  obtain ⟨strongerPassed, left⟩ := keeps
  have passed := fun between member => weakened between (strongerPassed between member)
  cases ended : traced machine with
  | mk earlier outcome =>
      simp only [ended] at passed left
      cases outcome with
      | finished result after =>
          have holds := changed after left
          constructor <;> rw [finallyChange_of_finished ended]
          · exact List.forall_mem_append.mpr ⟨passed, List.forall_mem_singleton.mpr holds⟩
          · exact holds
      | halted reason after =>
          have holds := changed after left
          constructor <;> rw [finallyChange_of_halted ended]
          · exact List.forall_mem_append.mpr ⟨passed, List.forall_mem_singleton.mpr holds⟩
          · exact holds
      | exhausted =>
          constructor <;> rw [finallyChange_of_exhausted ended]
          · exact passed
          · trivial

theorem andFinally {traced : Tracing α} {change : Machine → Machine}
    (keeps : Keeps property traced machine)
    (changed : ∀ after, property after → property (change after)) :
    Keeps property (Stepping.andFinally traced change) machine :=
  keeps.andFinally_mono (fun _ holds => holds) changed

end Keeps

end Tracing

end Plainspoken
