import Plainspoken.Proofs.Immutability

/-!
# Step by step

Each machine that an evaluation passes comes from the one before it by one change.  The
only change that touches a variable which stays there is that a value is stored in it.
So the values that are stored at a site on the way, in order, tell what its variable holds
in the end: the last one of them, or what it held before if there is none.
-/

namespace Plainspoken

open Stepping Evaluation

/-! ## One change after the other -/

namespace Machine

/-- The ways in which a machine that an evaluation passes comes from the one before it. -/
inductive Moves (machine : Machine) : Machine → Prop where
  | changed {change : Machine → Machine} (changes : Change change) :
      Moves machine (change machine)
  | counted (depth : Nat) : Moves machine { machine with depth := depth }
  | variableDeclared {binding : Variable} {frame : Frame}
      (declares : machine.current.declareVariable binding = .ok frame) :
      Moves machine (machine.modifyCurrent fun _ => frame)
  | callableDeclared (declared : Callable) :
      Moves machine
        (machine.modifyCurrent fun _ => (machine.current.declareCallable declared).2)

/-- The way from one machine to another, with the machines passed on it. -/
inductive Walks : Machine → List Machine → Machine → Prop where
  | done (machine : Machine) : Walks machine [] machine
  | step {machine next after : Machine} {later : List Machine} (moves : machine.Moves next)
      (walks : Walks next later after) : Walks machine (next :: later) after

namespace Walks

variable {machine between after : Machine} {later : List Machine}

/-- A way is a row of machines in which each comes from the one before it. -/
theorem iff_isChain : machine.Walks later after ↔
    (machine :: later).IsChain Moves ∧ (machine :: later).getLast? = some after := by
  constructor
  · intro walks
    induction walks with
    | done machine => exact ⟨.singleton machine, rfl⟩
    | step moves walks ih =>
        refine ⟨List.isChain_cons_cons.mpr ⟨moves, ih.1⟩, ?_⟩
        rw [List.getLast?_cons_cons]
        exact ih.2
  · rintro ⟨row, ends⟩
    induction later generalizing machine with
    | nil =>
        cases ends
        exact .done machine
    | cons next later ih =>
        obtain ⟨moves, rest⟩ := List.isChain_cons_cons.mp row
        rw [List.getLast?_cons_cons] at ends
        exact .step moves (ih rest ends)

/-- From every machine on the way the rest of the way leads to its end. -/
theorem rest (walks : machine.Walks later after) {before behind : List Machine}
    (cut : machine :: later = before ++ between :: behind) : between.Walks behind after := by
  induction walks generalizing before with
  | done machine =>
      cases before with
      | nil =>
          obtain ⟨rfl, rfl⟩ := List.cons_eq_cons.mp cut
          exact .done _
      | cons _ before => simp at cut
  | step moves walks ih =>
      cases before with
      | nil =>
          cases cut
          exact .step moves walks
      | cons _ before => exact ih (List.cons_eq_cons.mp cut).2

end Walks

end Machine

/-- From a machine on, a traced action passes others by one change after the other. -/
def Tracing.Walks {α : Type} (traced : Tracing α) (machine : Machine) : Prop :=
  ∃ after, machine.Walks (traced machine).passed after ∧
    (traced machine).outcome.Leaves (· = after)

namespace Tracing.Walks

variable {α β : Type} {machine : Machine}

theorem iff_proceeds {traced : Tracing α} :
    traced.Walks machine ↔ traced.Proceeds Machine.Moves machine := by
  constructor
  · rintro ⟨after, walks, left⟩
    obtain ⟨row, ends⟩ := Machine.Walks.iff_isChain.mp walks
    exact ⟨row, left.mono fun _ same => same ▸ ends⟩
  · rintro ⟨row, ends⟩
    have last := List.getLast?_eq_some_getLast (List.cons_ne_nil machine (traced machine).passed)
    refine ⟨_, Machine.Walks.iff_isChain.mpr ⟨row, last⟩, ends.mono fun _ isLast => ?_⟩
    exact Option.some.inj (isLast.symm.trans last)

theorem pure (result : α) : (Pure.pure result : Tracing α).Walks machine :=
  iff_proceeds.mpr (.pure result)

theorem read (view : Machine → α) : (Stepping.read view : Tracing α).Walks machine :=
  iff_proceeds.mpr (.read view)

theorem halt (reason : Halt) : (Stepping.halt reason : Tracing α).Walks machine :=
  iff_proceeds.mpr (.halt reason)

theorem exhaust : (Stepping.exhaust : Tracing α).Walks machine :=
  iff_proceeds.mpr .exhaust

theorem ofExcept (computed : Except RuntimeCause α) :
    (Stepping.ofExcept computed : Tracing α).Walks machine := by
  cases computed with
  | ok result => exact pure result
  | error cause => exact halt (.failed cause)

theorem update {change : Machine → Machine} (moves : machine.Moves (change machine)) :
    (Stepping.update change : Tracing Unit).Walks machine :=
  iff_proceeds.mpr (.update moves)

theorem bind {first : Tracing α} {second : α → Tracing β} (firstWalks : first.Walks machine)
    (secondWalks : ∀ result between, first.action machine = .finished result between →
      (second result).Walks between) :
    (first >>= second).Walks machine :=
  iff_proceeds.mpr ((iff_proceeds.mp firstWalks).bind fun result between finishes =>
    iff_proceeds.mp (secondWalks result between finishes))

theorem andFinally {traced : Tracing α} {change : Machine → Machine}
    (walks : traced.Walks machine) (moves : ∀ after : Machine, after.Moves (change after)) :
    (Stepping.andFinally traced change).Walks machine :=
  iff_proceeds.mpr ((iff_proceeds.mp walks).andFinally moves)

theorem addVariable (binding : Variable) :
    (addVariable binding : Tracing Unit).Walks machine := by
  refine bind (read _) fun _ _ reads => ?_
  cases reads
  split
  · next frame declares => exact update (.variableDeclared declares)
  · exact halt _

theorem declareCallable (declared : Callable) :
    (declareCallable declared : Tracing Unit).Walks machine := by
  refine bind (read _) fun checked _ _ => bind (ofExcept checked) fun _ between _ =>
    bind (read _) fun _ _ reads => ?_
  cases reads
  exact bind (update (.callableDeclared declared)) fun _ _ _ => ofExcept _

end Tracing.Walks

/-- Every step of an evaluation is a change. -/
def walking : Simulation Tracing Tracing where
  Related traced _ := ∀ machine, traced.Walks machine
  Covers _ := True
  parts _ _ := trivial
  pure result _ := .pure result
  bind first second machine := (first machine).bind fun result between _ => second result between
  halt reason _ := .halt reason
  read _ _ := .read _
  update changes _ := .update (.changed changes)
  andFinally changes walks machine := (walks machine).andFinally fun _ => .changed changes
  addVariable binding _ := .addVariable binding
  declareCallable _ _ := .declareCallable _
  resolving _ _ _ _ walks _ :=
    Tracing.Walks.bind (.read _) fun resolved _ _ =>
      Tracing.Walks.bind (.ofExcept resolved) fun found between _ =>
        walks found (fun _ _ => trivial) between

private theorem walking_nests (maxDepth : Nat) : walking.Nests maxDepth maxDepth where
  enter span machine := by
    refine Tracing.Walks.bind (.update (.counted _)) fun _ _ _ =>
      Tracing.Walks.bind (.read _) fun tooDeep _ _ => ?_
    split
    · exact .halt _
    · exact .pure _
  leave _ := .update (.counted _)
  exhaust _ := .exhaust

theorem execute_walks (maxDepth fuel : Nat) (statement : Statement) (machine : Machine) :
    (execute maxDepth fuel statement : Tracing Flow).Walks machine :=
  ((walking_nests maxDepth).evaluation fuel).2.1 statement trivial machine

/-! ## What is stored at a site on the way -/

/-- The values that are stored at a site on the way from a machine over others, in order.
What is no such step leaves the variable as it is. -/
inductive StoredAlong (site : Site) : Machine → List Machine → List Value → Prop where
  | done (machine : Machine) : StoredAlong site machine [] []
  | stored {machine : Machine} {value : Value} {later : List Machine} {values : List Value}
      (rest : StoredAlong site (machine.store site value) later values) :
      StoredAlong site machine (machine.store site value :: later) (value :: values)
  | kept {machine next : Machine} {later : List Machine} {values : List Value}
      (same : next.stack.binding? site = machine.stack.binding? site)
      (rest : StoredAlong site next later values) :
      StoredAlong site machine (next :: later) values

namespace Frame

/-- Closing a scope leaves a variable or takes it away. -/
theorem binding?_popScope_of_isSome {frame : Frame} {level : Nat} {name : String}
    (lives : (frame.popScope.binding? level name).isSome = true) :
    frame.popScope.binding? level name = frame.binding? level name := by
  obtain ⟨binding, found⟩ := Option.isSome_iff_exists.mp lives
  have inside : level < frame.popScope.scopes.length := lt_length_of_binding? found
  apply binding?_popScope
  simp only [popScope, List.length_tail] at inside
  omega

end Frame

namespace Machine

variable {machine after : Machine} {site : Site}

theorem binding?_modifyCurrent_eq {change : Frame → Frame}
    (same : (change machine.current).binding? site.scope site.name =
      machine.current.binding? site.scope site.name) :
    (machine.modifyCurrent change).stack.binding? site = machine.stack.binding? site := by
  rw [modifyCurrent, CallStack.binding?_modifyCurrent]
  split
  · next isTop =>
    rw [CallStack.binding?_of_frame_eq_height isTop]
    exact same
  · rfl

theorem binding?_popScope_of_isSome
    (lives : (machine.popScope.stack.binding? site).isSome = true) :
    machine.popScope.stack.binding? site = machine.stack.binding? site := by
  rw [popScope, modifyCurrent, CallStack.binding?_modifyCurrent] at lives ⊢
  split at lives
  · next isTop =>
    rw [if_pos isTop, CallStack.binding?_of_frame_eq_height isTop]
    exact Frame.binding?_popScope_of_isSome lives
  · next isLower => rw [if_neg isLower]

theorem binding?_popFrame_of_isSome
    (lives : (machine.popFrame.stack.binding? site).isSome = true) :
    machine.popFrame.stack.binding? site = machine.stack.binding? site := by
  obtain ⟨⟨current, callers⟩, depth, lastValue, emitted⟩ := machine
  cases callers with
  | nil => rfl
  | cons caller callers =>
      obtain ⟨binding, found⟩ := Option.isSome_iff_exists.mp lives
      have below : site.frame ≤ callers.length := CallStack.le_height_of_binding? found
      have same := CallStack.frame?_pop ⟨current, caller :: callers⟩ (Nat.lt_succ_of_le below)
      rw [popFrame, CallStack.binding?, same]
      rfl

/-- A change of the innermost scope that leaves its variables leaves all others too. -/
theorem binding?_modifyInnermost {change : Scope → Scope}
    (kept : ∀ scope : Scope, (change scope).bindings = scope.bindings) :
    (machine.modifyCurrent (·.modifyInnermost change)).stack.binding? site =
      machine.stack.binding? site :=
  binding?_modifyCurrent_eq (Frame.binding?_of_map_bindings_eq
    (machine.current.map_bindings_modifyInnermost kept) _ _)

theorem binding?_declareCallable (declared : Callable) :
    (machine.modifyCurrent fun _ => (machine.current.declareCallable declared).2).stack.binding?
      site = machine.stack.binding? site :=
  binding?_modifyCurrent_eq (Frame.binding?_of_map_bindings_eq
    (machine.current.map_bindings_declareCallable declared) _ _)

theorem binding?_declareVariable {declared binding : Variable} {frame : Frame}
    (declares : machine.current.declareVariable declared = .ok frame)
    (found : machine.stack.binding? site = some binding) :
    (machine.modifyCurrent fun _ => frame).stack.binding? site = machine.stack.binding? site := by
  rw [modifyCurrent, CallStack.binding?_modifyCurrent]
  split
  · next isTop =>
    rw [CallStack.binding?_of_frame_eq_height isTop] at found ⊢
    rw [found]
    exact Frame.binding?_of_declareVariable declares found
  · rfl

/-- A variable that is there before and after a change is as it was, unless a value is
stored in it. -/
theorem Moves.stores_or_keeps (moves : machine.Moves after) {binding : Variable}
    (found : machine.stack.binding? site = some binding)
    (lives : (after.stack.binding? site).isSome = true) :
    (∃ value, after = machine.store site value) ∨
      after.stack.binding? site = machine.stack.binding? site := by
  -- Only storing changes what is held at a site that is there before and after.  Where scopes or
  -- frames close, that it is there after tells that it is not among those that are removed.
  cases moves with
  | counted depth => exact .inr rfl
  | variableDeclared declares => exact .inr (binding?_declareVariable declares found)
  | callableDeclared declared => exact .inr (binding?_declareCallable declared)
  | changed changes =>
      cases changes with
      | marked span => exact .inr (binding?_modifyCurrent_eq rfl)
      | flagsSet flags => exact .inr (binding?_modifyInnermost fun _ => rfl)
      | flagsUnset flags => exact .inr (binding?_modifyInnermost fun _ => rfl)
      | flagsRestored wasSet flags =>
          cases wasSet with
          | true => exact .inr rfl
          | false => exact .inr (binding?_modifyInnermost fun _ => rfl)
      | scopeOpened bare => exact .inr ((binding?_pushScope found _).trans found.symm)
      | scopeClosed => exact .inr (binding?_popScope_of_isSome lives)
      | frameOpened bare => exact .inr ((binding?_pushFrame found _).trans found.symm)
      | frameClosed => exact .inr (binding?_popFrame_of_isSome lives)
      | stored other value =>
          by_cases same : site = other
          · subst same
            exact .inl ⟨value, rfl⟩
          · right
            rw [binding?_store, if_neg same]
      | remembered value => exact .inr rfl
      | linePrinted text => exact .inr rfl
      | returnMissed span name => exact .inr rfl

/-- Along a way on which a variable stays, values are stored in it or it is left alone. -/
theorem Walks.storedAlong {later : List Machine} (walks : machine.Walks later after)
    (lives : ∀ passed ∈ machine :: later, (passed.stack.binding? site).isSome = true) :
    ∃ values, StoredAlong site machine later values := by
  induction walks with
  | done machine => exact ⟨[], .done machine⟩
  | @step machine next after later moves walks ih =>
      obtain ⟨here, further⟩ := List.forall_mem_cons.mp lives
      obtain ⟨values, rest⟩ := ih further
      obtain ⟨binding, found⟩ := Option.isSome_iff_exists.mp here
      have nextLives := further next List.mem_cons_self
      rcases moves.stores_or_keeps found nextLives with ⟨value, rfl⟩ | same
      · exact ⟨value :: values, .stored rest⟩
      · exact ⟨values, .kept same rest⟩

end Machine

/-- In the end a variable is what the values stored in it have made of it. -/
theorem StoredAlong.binding? {site : Site} {machine after : Machine} {later : List Machine}
    {values : List Value} (stored : StoredAlong site machine later values)
    (walks : machine.Walks later after) :
    after.stack.binding? site =
      (machine.stack.binding? site).map fun binding => values.foldl Variable.store binding := by
  induction stored with
  | done machine =>
      cases walks
      simp
  | stored rest ih =>
      cases walks with
      | step moves walks =>
          rw [ih walks, Machine.binding?_store, if_pos rfl, Option.map_map]
          rfl
  | kept same rest ih =>
      cases walks with
      | step moves walks => rw [ih walks, same]

/-- Only the last value counts. -/
theorem Variable.foldl_store (binding : Variable) (values : List Value) (value : Value) :
    (values.foldl Variable.store (binding.store value)) =
      binding.store (values.getLast?.getD value) := by
  induction values generalizing value with
  | nil => rfl
  | cons next values ih =>
      have again : (binding.store value).store next = binding.store next := rfl
      rw [List.foldl_cons, again, ih, List.getLast?_cons]
      rfl

end Plainspoken
