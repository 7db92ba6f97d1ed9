import Plainspoken.Proofs.CallableTable
import Plainspoken.Proofs.Maintenance
import Plainspoken.Proofs.Separation

/-!
# The scopes of a machine

A property may hold of every scope of every frame.  A change of the machine is made
of changes to single scopes, so that it is enough if these keep the property.

Scopes stay open: an evaluation closes no scope that was open when it started, in
no frame.  When a call is halted its frame stays on top, and what is closed
afterwards is closed in that frame, never in a frame below it.
-/

namespace Plainspoken

open Stepping Evaluation

/-! ## Properties of every scope -/

theorem Height.exists_get?_of_mem {α : Type} {stack : List α} {element : α}
    (member : element ∈ stack) : ∃ height, Height.get? stack height = some element := by
  induction stack with
  | nil => cases member
  | cons top stack ih =>
      rcases List.mem_cons.mp member with rfl | later
      · exact ⟨stack.length, Height.get?_cons_length element stack⟩
      · obtain ⟨height, found⟩ := ih later
        have below := Height.lt_of_get?_eq_some found
        exact ⟨height, (Height.get?_cons_of_lt below).trans found⟩

theorem Height.get?_map {α β : Type} (change : α → β) (stack : List α) (height : Nat) :
    Height.get? (stack.map change) height = (Height.get? stack height).map change := by
  unfold Height.get?
  rw [List.length_map, List.getElem?_map]
  split <;> rfl

def Frame.Throughout (property : Scope → Prop) (frame : Frame) : Prop :=
  ∀ scope ∈ frame.scopes, property scope

namespace Frame.Throughout

variable {property : Scope → Prop} {frame : Frame}

theorem modifyInnermost {change : Scope → Scope} (throughout : frame.Throughout property)
    (changed : ∀ scope, property scope → property (change scope)) :
    (frame.modifyInnermost change).Throughout property := by
  intro scope member
  unfold Frame.modifyInnermost at member
  unfold Frame.Throughout at throughout
  cases scopes : frame.scopes with
  | nil =>
      rw [scopes] at member
      cases member
  | cons inner outer =>
      rw [scopes] at member throughout
      rcases List.mem_cons.mp member with rfl | isOuter
      · exact changed inner (throughout inner List.mem_cons_self)
      · exact throughout scope (List.mem_cons_of_mem inner isOuter)

theorem pushScope {scope : Scope} (throughout : frame.Throughout property)
    (holds : property scope) : (frame.pushScope scope).Throughout property :=
  List.forall_mem_cons.mpr ⟨holds, throughout⟩

theorem popScope (throughout : frame.Throughout property) :
    frame.popScope.Throughout property :=
  fun scope member => throughout scope (List.mem_of_mem_tail member)

theorem foldl_insertVariable {bindings : List Variable} (throughout : frame.Throughout property)
    (inserted : ∀ binding ∈ bindings, ∀ scope, property scope →
      property (scope.insertVariable binding)) :
    (bindings.foldl Frame.insertVariable frame).Throughout property := by
  induction bindings generalizing frame with
  | nil => exact throughout
  | cons binding bindings ih =>
      apply ih
      · exact throughout.modifyInnermost (inserted binding List.mem_cons_self)
      · intro later member
        exact inserted later (List.mem_cons_of_mem binding member)

/-- Declaring a callable changes scopes by adding the declaration only. -/
theorem declareCallable {declared : Callable} (throughout : frame.Throughout property)
    (inserted : ∀ scope, property scope → property (scope.insertEntry ⟨declared, none⟩)) :
    (frame.declareCallable declared).2.Throughout property := by
  have completes (scope : Scope) (holds : property scope) :
      property (scope.completedBy declared) := by
    unfold Scope.completedBy
    split
    · exact inserted scope holds
    · exact holds
  have declares := frame.declareCallable_declares declared
  generalize (frame.declareCallable declared).1 = result at declares
  generalize (frame.declareCallable declared).2 = after at declares ⊢
  cases declares with
  | conflict scopes conflicts agree =>
      unfold Frame.Throughout at throughout
      simp only [scopes, List.forall_mem_append, List.forall_mem_cons] at throughout
      obtain ⟨innerHold, scopeHolds, outerHold⟩ := throughout
      refine List.forall_mem_append.mpr ⟨innerHold, List.forall_mem_cons.mpr ⟨scopeHolds, ?_⟩⟩
      exact List.forall_mem_map.mpr fun scope member => completes scope (outerHold scope member)
  | undeclared overrides unknown => exact throughout
  | completed overrides agree known =>
      exact List.forall_mem_map.mpr fun scope member => completes scope (throughout scope member)
  | added plain agree => exact throughout.modifyInnermost inserted

end Frame.Throughout

def Machine.Everywhere (property : Scope → Prop) (machine : Machine) : Prop :=
  ∀ frame ∈ machine.stack.frames, frame.Throughout property

namespace Machine.Everywhere

variable {property : Scope → Prop} {machine : Machine} (everywhere : machine.Everywhere property)

include everywhere

theorem current : machine.current.Throughout property :=
  everywhere machine.current List.mem_cons_self

theorem modifyCurrent {change : Frame → Frame}
    (changed : (change machine.current).Throughout property) :
    (machine.modifyCurrent change).Everywhere property := by
  intro frame member
  rcases List.mem_cons.mp member with rfl | isCaller
  · exact changed
  · exact everywhere frame (List.mem_cons_of_mem _ isCaller)

theorem modifyInnermost {change : Scope → Scope}
    (changed : ∀ scope, property scope → property (change scope)) :
    (machine.modifyCurrent (·.modifyInnermost change)).Everywhere property :=
  everywhere.modifyCurrent (everywhere.current.modifyInnermost changed)

theorem pushScope {scope : Scope} (holds : property scope) :
    (machine.pushScope scope).Everywhere property :=
  everywhere.modifyCurrent (everywhere.current.pushScope holds)

theorem popScope : machine.popScope.Everywhere property :=
  everywhere.modifyCurrent everywhere.current.popScope

theorem pushFrame {frame : Frame} (throughout : frame.Throughout property) :
    (machine.pushFrame frame).Everywhere property :=
  List.forall_mem_cons.mpr ⟨throughout, everywhere⟩

theorem popFrame : machine.popFrame.Everywhere property := by
  obtain ⟨⟨current, callers⟩, depth, lastValue, emitted⟩ := machine
  cases callers with
  | nil => exact everywhere
  | cons caller callers => exact (List.forall_mem_cons.mp everywhere).2

/-- Storing a value changes the one scope in which the variable lives. -/
theorem store {site : Site} {value : Value}
    (stored : ∀ frame scope, machine.stack.frame? site.frame = some frame →
      frame.scope? site.scope = some scope →
        property (scope.modifyVariable site.name (·.store value))) :
    (machine.store site value).Everywhere property := by
  intro frame member scope scopeMember
  obtain ⟨height, found⟩ := Height.exists_get?_of_mem member
  obtain ⟨level, scopeFound⟩ := Height.exists_get?_of_mem scopeMember
  rw [← CallStack.frame?_eq, Machine.store, CallStack.frame?_modifyVariable] at found
  have unchanged {height : Nat} {frame : Frame} {scope : Scope}
      (found : machine.stack.frame? height = some frame) (member : scope ∈ frame.scopes) :
      property scope := by
    rw [CallStack.frame?_eq] at found
    exact everywhere frame (Height.mem_of_get?_eq_some found) scope member
  split at found
  · next atFrame =>
    obtain ⟨earlier, earlierFound, rfl⟩ := Option.map_eq_some_iff.mp found
    simp only [Frame.modifyVariable, Height.get?_modify] at scopeFound
    split at scopeFound
    · next atScope =>
      obtain ⟨earlierScope, earlierScopeFound, rfl⟩ := Option.map_eq_some_iff.mp scopeFound
      exact stored earlier earlierScope (atFrame ▸ earlierFound) (atScope ▸ earlierScopeFound)
    · exact unchanged earlierFound (Height.mem_of_get?_eq_some scopeFound)
  · exact unchanged found scopeMember

end Machine.Everywhere

/-- At first no scope has a variable. -/
theorem Machine.Everywhere.initial {property : Scope → Prop}
    (unbound : ∀ scope : Scope, scope.bindings = [] → property scope) :
    Machine.initial.Everywhere property := by
  intro frame member scope scopeMember
  rw [List.mem_singleton.mp member] at scopeMember
  rcases List.mem_cons.mp scopeMember with rfl | isOuter
  · exact unbound _ rfl
  · rw [List.mem_singleton.mp isOuter]
    exact unbound _ rfl

/-! ## Scopes that stay open -/

theorem CallStack.le_height_of_frame? {stack : CallStack} {height : Nat} {frame : Frame}
    (found : stack.frame? height = some frame) : height ≤ stack.height := by
  by_contra above
  rw [stack.frame?_eq_none (Nat.lt_of_not_le above)] at found
  cases found

/-- The scopes that are open on the first machine are open on the second one. -/
def Machine.Retains (machine after : Machine) : Prop :=
  ∀ height frame, machine.stack.frame? height = some frame →
    ∃ later, after.stack.frame? height = some later ∧
      frame.scopes.length ≤ later.scopes.length

namespace Machine.Retains

theorem refl (machine : Machine) : machine.Retains machine :=
  fun _ frame found => ⟨frame, found, Nat.le_refl _⟩

theorem trans {first second third : Machine} (firstSecond : first.Retains second)
    (secondThird : second.Retains third) : first.Retains third := by
  intro height frame found
  obtain ⟨middle, middleFound, middleLonger⟩ := firstSecond height frame found
  obtain ⟨later, laterFound, laterLonger⟩ := secondThird height middle middleFound
  exact ⟨later, laterFound, Nat.le_trans middleLonger laterLonger⟩

theorem of_stack_eq {machine after : Machine} (same : after.stack = machine.stack) :
    machine.Retains after := by
  intro height frame found
  exact ⟨frame, by rw [same, found], Nat.le_refl _⟩

theorem of_alike {machine after : Machine} (alike : machine.stack.Alike after.stack) :
    machine.Retains after := by
  intro height frame found
  have frames := alike.frame? height
  rw [found] at frames
  generalize after.stack.frame? height = later at frames
  cases frames with
  | some frameAlike => exact ⟨_, rfl, Nat.le_of_eq frameAlike.scopes.length_eq⟩

theorem modifyCurrent {machine : Machine} {change : Frame → Frame}
    (longer : machine.current.scopes.length ≤ (change machine.current).scopes.length) :
    machine.Retains (machine.modifyCurrent change) := by
  intro height frame found
  rw [Machine.modifyCurrent, CallStack.frame?_modifyCurrent]
  split
  · next isTop =>
    rw [isTop, CallStack.frame?_height] at found
    cases found
    exact ⟨_, rfl, longer⟩
  · exact ⟨frame, found, Nat.le_refl _⟩

theorem modifyInnermost (machine : Machine) (change : Scope → Scope) :
    machine.Retains (machine.modifyCurrent (·.modifyInnermost change)) := by
  apply modifyCurrent
  simp [Frame.modifyInnermost]

theorem pushFrame (machine : Machine) (frame : Frame) :
    machine.Retains (machine.pushFrame frame) := by
  intro height below found
  have within := CallStack.le_height_of_frame? found
  rw [Machine.pushFrame, CallStack.frame?_push, if_neg (by omega)]
  exact ⟨below, found, Nat.le_refl _⟩

variable {machine after : Machine}

/-- No frame that was there is taken off. -/
theorem height_le (retains : machine.Retains after) :
    machine.stack.height ≤ after.stack.height := by
  obtain ⟨later, found, -⟩ := retains _ _ machine.stack.frame?_height
  exact CallStack.le_height_of_frame? found

/-- What is closed is the scope that was opened, or one of a frame above. -/
theorem popScope {scope : Scope} (inside : (machine.pushScope scope).Retains after) :
    machine.Retains after.popScope := by
  intro height frame found
  have above : machine.stack.height ≤ after.stack.height := inside.height_le
  have opened := inside height
  rw [Machine.pushScope, Machine.modifyCurrent, CallStack.frame?_modifyCurrent] at opened
  rw [Machine.popScope, Machine.modifyCurrent, CallStack.frame?_modifyCurrent]
  split at opened
  · next isTop =>
    rw [isTop, CallStack.frame?_height] at found
    cases found
    obtain ⟨later, laterFound, longer⟩ := opened _ rfl
    simp only [Frame.pushScope, List.length_cons] at longer
    split
    · next stillTop =>
      rw [stillTop, CallStack.frame?_height] at laterFound
      cases laterFound
      refine ⟨_, rfl, ?_⟩
      rw [Frame.popScope, List.length_tail]
      exact Nat.le_sub_one_of_lt longer
    · exact ⟨later, laterFound, Nat.le_of_succ_le longer⟩
  · next notTop =>
    have below := CallStack.le_height_of_frame? found
    rw [if_neg (by omega)]
    exact opened frame found

/-- What is taken off is the frame that was put on top, or one above it. -/
theorem popFrame {frame : Frame} (inside : (machine.pushFrame frame).Retains after) :
    machine.Retains after.popFrame := by
  intro height below found
  have above : machine.stack.height + 1 ≤ after.stack.height := inside.height_le
  have within := CallStack.le_height_of_frame? found
  have opened := inside height below
  rw [Machine.pushFrame, CallStack.frame?_push, if_neg (by omega)] at opened
  rw [Machine.popFrame, CallStack.frame?_pop _ (by omega)]
  exact opened found

/-- An evaluation closes none of the scopes that are open when it starts. -/
theorem maintained : Machine.Maintained Machine.Retains where
  refl := refl
  trans := trans
  noted _ _ _ _ := of_stack_eq rfl
  marked _ _ := modifyCurrent (Nat.le_refl _)
  flagsSet machine _ := modifyInnermost machine _
  flagsUnset machine _ := modifyInnermost machine _
  scopeOpened _ _ _ := modifyCurrent (Nat.le_succ _)
  scopeClosed _ inside := inside.popScope
  frameOpened machine frame _ := pushFrame machine frame
  frameClosed _ inside := inside.popFrame
  stored machine site _ _ _ _ := of_alike (.store machine site _)
  variableDeclared machine binding frame _ declares := by
    apply modifyCurrent
    unfold Frame.declareVariable at declares
    split at declares
    · cases declares
    · cases declares
      simp [Frame.insertVariable, Frame.modifyInnermost]
  callableDeclared machine declared _ :=
    modifyCurrent (Nat.le_of_eq (machine.current.length_scopes_declareCallable declared).symm)

end Machine.Retains

end Plainspoken
