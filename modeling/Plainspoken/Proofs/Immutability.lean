import Plainspoken.Proofs.Scopes

/-!
# Variables that may not be assigned

An evaluation leaves every scope of every frame that was open when it started, and in
each of them every variable.  A variable that may be assigned may hold another value
afterwards; one that may not is as it was.

It makes no difference how the evaluation ends.  The mutability that is checked before
an assignment is that of the variable which owns the storage, and it is still the same
when the value is stored.  A declaration replaces no variable, since no scope of the
frame may have one of its name.  And what is closed after a halt is a scope that the
evaluation itself has opened.
-/

namespace Plainspoken

open Stepping Evaluation

/-! ## Variables by scope and name -/

namespace Frame

/-- What is found under a name depends on the variables of the scopes only. -/
theorem binding?_of_map_bindings_eq {frame after : Frame}
    (same : after.scopes.map Scope.bindings = frame.scopes.map Scope.bindings)
    (level : Nat) (name : String) : after.binding? level name = frame.binding? level name := by
  have found (frame : Frame) : frame.binding? level name =
      (Height.get? (frame.scopes.map Scope.bindings) level).bind
        (·.find? fun binding => binding.name == name) := by
    rw [Height.get?_map, Option.bind_map]
    rfl
  rw [found, found, same]

theorem map_bindings_modifyInnermost (frame : Frame) {change : Scope → Scope}
    (kept : ∀ scope : Scope, (change scope).bindings = scope.bindings) :
    (frame.modifyInnermost change).scopes.map Scope.bindings =
      frame.scopes.map Scope.bindings := by
  unfold modifyInnermost
  cases frame.scopes with
  | nil => rfl
  | cons inner outer => simp [kept]

/-- A declaration of a callable has nothing to do with variables. -/
theorem map_bindings_declareCallable (frame : Frame) (declared : Callable) :
    (frame.declareCallable declared).2.scopes.map Scope.bindings =
      frame.scopes.map Scope.bindings := by
  have completes (scopes : List Scope) :
      (scopes.map (·.completedBy declared)).map Scope.bindings = scopes.map Scope.bindings := by
    rw [List.map_map]
    apply List.map_congr_left
    intro scope _
    simp only [Function.comp_apply, Scope.completedBy]
    split
    · rfl
    · rfl
  have declares := frame.declareCallable_declares declared
  generalize (frame.declareCallable declared).1 = result at declares
  generalize (frame.declareCallable declared).2 = after at declares ⊢
  cases declares with
  | conflict scopes conflicts agree => simp [scopes, completes]
  | undeclared overrides unknown => rfl
  | completed overrides agree known => exact completes frame.scopes
  | added plain agree => exact frame.map_bindings_modifyInnermost fun _ => rfl

theorem lt_length_of_binding? {frame : Frame} {level : Nat} {name : String} {binding : Variable}
    (found : frame.binding? level name = some binding) : level < frame.scopes.length := by
  obtain ⟨scope, scopeFound, -⟩ := Option.bind_eq_some_iff.mp found
  exact Height.lt_of_get?_eq_some scopeFound

theorem binding?_pushScope {frame : Frame} {level : Nat} (below : level < frame.scopes.length)
    (scope : Scope) (name : String) :
    (frame.pushScope scope).binding? level name = frame.binding? level name := by
  unfold binding? scope? pushScope
  rw [Height.get?_cons_of_lt below]

/-- Closing the innermost scope leaves the variables of the others. -/
theorem binding?_popScope {frame : Frame} {level : Nat} (below : level + 1 < frame.scopes.length)
    (name : String) : frame.popScope.binding? level name = frame.binding? level name := by
  obtain ⟨label, span, returns, scopes⟩ := frame
  cases scopes with
  | nil => exact absurd below (Nat.not_lt_zero _)
  | cons inner outer =>
      have within : level < (Frame.mk label span returns outer).scopes.length :=
        Nat.lt_of_succ_lt_succ below
      exact (binding?_pushScope within inner name).symm

/-- A declaration that succeeds adds a variable and replaces none. -/
theorem binding?_of_declareVariable {frame after : Frame} {declared binding : Variable}
    (declares : frame.declareVariable declared = .ok after) {level : Nat} {name : String}
    (found : frame.binding? level name = some binding) :
    after.binding? level name = some binding := by
  unfold declareVariable at declares
  split at declares
  · cases declares
  · next fresh =>
    cases declares
    rw [List.findSome?_eq_none_iff] at fresh
    obtain ⟨label, span, returns, scopes⟩ := frame
    cases scopes with
    | nil => exact found
    | cons inner outer =>
        have innerFresh : inner.binding? declared.name = none := fresh inner (by simp)
        unfold binding? scope? at found ⊢
        simp only [insertVariable, modifyInnermost, List.modifyHead_cons,
          Height.get?_cons] at found ⊢
        split at found
        · next isInnermost =>
          rw [if_pos isInnermost, Option.bind_some]
          rw [Option.bind_some] at found
          have other : declared.name ≠ name := by
            rintro rfl
            rw [innerFresh] at found
            cases found
          simpa [Scope.binding?, Scope.insertVariable_bindings_of_binding?_eq_none innerFresh,
            other] using found
        · next isOuter =>
          rw [if_neg isOuter]
          exact found

end Frame

namespace CallStack

theorem le_height_of_binding? {stack : CallStack} {site : Site} {binding : Variable}
    (found : stack.binding? site = some binding) : site.frame ≤ stack.height := by
  obtain ⟨frame, frameFound, -⟩ := Option.bind_eq_some_iff.mp found
  exact le_height_of_frame? frameFound

theorem binding?_modifyCurrent (stack : CallStack) (change : Frame → Frame) (site : Site) :
    (stack.modifyCurrent change).binding? site =
      if site.frame = stack.height then (change stack.current).binding? site.scope site.name
      else stack.binding? site := by
  unfold binding?
  rw [frame?_modifyCurrent]
  split
  · rfl
  · rfl

theorem binding?_of_frame_eq_height {stack : CallStack} {site : Site}
    (isTop : site.frame = stack.height) :
    stack.binding? site = stack.current.binding? site.scope site.name := by
  rw [binding?, isTop, frame?_height]
  rfl

end CallStack

namespace Machine

variable {machine : Machine} {site : Site} {binding : Variable}
  (found : machine.stack.binding? site = some binding)

include found

theorem binding?_pushScope (scope : Scope) :
    (machine.pushScope scope).stack.binding? site = some binding := by
  rw [pushScope, modifyCurrent, CallStack.binding?_modifyCurrent]
  split
  · next isTop =>
    rw [CallStack.binding?_of_frame_eq_height isTop] at found
    rw [← found]
    exact Frame.binding?_pushScope (Frame.lt_length_of_binding? found) scope site.name
  · exact found

theorem binding?_pushFrame (frame : Frame) :
    (machine.pushFrame frame).stack.binding? site = some binding := by
  have below := CallStack.le_height_of_binding? found
  rw [pushFrame, CallStack.binding?, CallStack.frame?_push, if_neg (by omega)]
  exact found

end Machine

/-! ## What becomes of a variable -/

/-- A variable is declared as before, and if it may not be assigned it holds what it
held. -/
structure Variable.Upheld (before after : Variable) : Prop extends before.Alike after where
  constant : before.declarator.isMutable = false →
    after.value = before.value ∧ after.initialized = before.initialized

namespace Variable.Upheld

theorem refl (binding : Variable) : binding.Upheld binding :=
  ⟨.refl binding, fun _ => ⟨rfl, rfl⟩⟩

theorem trans {first second third : Variable} (firstSecond : first.Upheld second)
    (secondThird : second.Upheld third) : first.Upheld third := by
  refine ⟨firstSecond.toAlike.trans secondThird.toAlike, fun unassignable => ?_⟩
  obtain ⟨value, initialized⟩ := firstSecond.constant unassignable
  have stillUnassignable : second.declarator.isMutable = false := by
    rw [firstSecond.declarator]
    exact unassignable
  obtain ⟨laterValue, laterInitialized⟩ := secondThird.constant stillUnassignable
  exact ⟨laterValue.trans value, laterInitialized.trans initialized⟩

/-- A value may be stored where assignment is allowed. -/
theorem store {binding : Variable} (assignable : binding.declarator.isMutable = true)
    (value : Value) : binding.Upheld (binding.store value) := by
  refine ⟨.store binding value, fun unassignable => ?_⟩
  rw [assignable] at unassignable
  cases unassignable

end Variable.Upheld

/-- Every open scope is still open, and every variable is upheld. -/
structure Machine.Upholds (machine after : Machine) : Prop where
  scopes : machine.Retains after
  bindings : ∀ site binding, machine.stack.binding? site = some binding →
    ∃ later, after.stack.binding? site = some later ∧ binding.Upheld later

namespace Machine.Upholds

theorem of_binding? {machine after : Machine} (scopes : machine.Retains after)
    (kept : ∀ site binding, machine.stack.binding? site = some binding →
      after.stack.binding? site = some binding) : machine.Upholds after :=
  ⟨scopes, fun site binding found => ⟨binding, kept site binding found, .refl binding⟩⟩

theorem trans {first second third : Machine} (firstSecond : first.Upholds second)
    (secondThird : second.Upholds third) : first.Upholds third := by
  refine ⟨firstSecond.scopes.trans secondThird.scopes, fun site binding found => ?_⟩
  obtain ⟨between, betweenFound, upheld⟩ := firstSecond.bindings site binding found
  obtain ⟨later, laterFound, stillUpheld⟩ := secondThird.bindings site between betweenFound
  exact ⟨later, laterFound, upheld.trans stillUpheld⟩

theorem of_stack_eq {machine after : Machine} (same : after.stack = machine.stack) :
    machine.Upholds after := by
  apply of_binding? (.of_stack_eq same)
  intro site binding found
  rw [same]
  exact found

/-- A change of the current frame upholds all variables if it leaves those of the frame. -/
theorem modifyCurrent {machine : Machine} {change : Frame → Frame}
    (scopes : machine.Retains (machine.modifyCurrent change))
    (kept : ∀ level name binding, machine.current.binding? level name = some binding →
      (change machine.current).binding? level name = some binding) :
    machine.Upholds (machine.modifyCurrent change) := by
  apply of_binding? scopes
  intro site binding found
  rw [Machine.modifyCurrent, CallStack.binding?_modifyCurrent]
  split
  · next isTop =>
    rw [CallStack.binding?_of_frame_eq_height isTop] at found
    exact kept site.scope site.name binding found
  · exact found

private theorem of_map_bindings_eq {machine : Machine} {change : Frame → Frame}
    (same : (change machine.current).scopes.map Scope.bindings =
      machine.current.scopes.map Scope.bindings) :
    machine.Upholds (machine.modifyCurrent change) := by
  apply modifyCurrent
  · have lengths := congrArg List.length same
    rw [List.length_map, List.length_map] at lengths
    exact .modifyCurrent (Nat.le_of_eq lengths.symm)
  · intro level name binding found
    rw [Frame.binding?_of_map_bindings_eq same]
    exact found

theorem pushScope (machine : Machine) (scope : Scope) :
    machine.Upholds (machine.pushScope scope) :=
  of_binding? (.modifyCurrent (Nat.le_succ _)) fun _ _ found => binding?_pushScope found scope

theorem pushFrame (machine : Machine) (frame : Frame) :
    machine.Upholds (machine.pushFrame frame) :=
  of_binding? (.pushFrame machine frame) fun _ _ found => binding?_pushFrame found frame

variable {machine after : Machine}

/-- The scope that is closed is none of those that were open before the one on top of
them was opened. -/
theorem popScope {scope : Scope} (inside : (machine.pushScope scope).Upholds after) :
    machine.Upholds after.popScope := by
  refine ⟨inside.scopes.popScope, fun site binding found => ?_⟩
  have opened := (pushScope machine scope).trans inside
  obtain ⟨later, laterFound, upheld⟩ := opened.bindings site binding found
  refine ⟨later, ?_, upheld⟩
  rw [Machine.popScope, Machine.modifyCurrent, CallStack.binding?_modifyCurrent]
  split
  · next isTop =>
    have below := CallStack.le_height_of_binding? found
    have above : machine.stack.height ≤ after.stack.height := inside.scopes.height_le
    have wasTop : site.frame = machine.stack.height := by omega
    rw [CallStack.binding?_of_frame_eq_height isTop] at laterFound
    rw [CallStack.binding?_of_frame_eq_height wasTop] at found
    have level := Frame.lt_length_of_binding? found
    obtain ⟨frame, frameFound, longer⟩ := inside.scopes _ _ (CallStack.frame?_height _)
    have sameHeight : (machine.pushScope scope).stack.height = after.stack.height :=
      wasTop.symm.trans isTop
    rw [sameHeight, CallStack.frame?_height] at frameFound
    cases frameFound
    have inner : site.scope + 1 < after.stack.current.scopes.length :=
      Nat.lt_of_lt_of_le (Nat.succ_lt_succ level) longer
    rw [Frame.binding?_popScope inner]
    exact laterFound
  · exact laterFound

/-- The frame that is taken off is none of those below the one that was put on top. -/
theorem popFrame {frame : Frame} (inside : (machine.pushFrame frame).Upholds after) :
    machine.Upholds after.popFrame := by
  refine ⟨inside.scopes.popFrame, fun site binding found => ?_⟩
  have opened := (pushFrame machine frame).trans inside
  obtain ⟨later, laterFound, upheld⟩ := opened.bindings site binding found
  refine ⟨later, ?_, upheld⟩
  have above : machine.stack.height + 1 ≤ after.stack.height := inside.scopes.height_le
  have below := CallStack.le_height_of_binding? found
  rw [Machine.popFrame, CallStack.binding?, CallStack.frame?_pop _ (by omega)]
  exact laterFound

theorem store {site : Site} {binding : Variable}
    (found : machine.stack.binding? site = some binding)
    (assignable : binding.declarator.isMutable = true) (value : Value) :
    machine.Upholds (machine.store site value) := by
  refine ⟨.of_alike (.store machine site value), fun other otherBinding otherFound => ?_⟩
  rw [Machine.binding?_store]
  split
  · next same =>
    rw [same, found] at otherFound
    cases otherFound
    rw [same, found]
    exact ⟨_, rfl, .store assignable value⟩
  · exact ⟨otherBinding, otherFound, .refl otherBinding⟩

/-- Every change that an evaluation makes upholds the variables that are there. -/
theorem maintained : Machine.Maintained Machine.Upholds where
  refl _ := of_stack_eq rfl
  trans := trans
  noted _ _ _ _ := of_stack_eq rfl
  marked _ _ := of_map_bindings_eq rfl
  flagsSet machine _ :=
    of_map_bindings_eq (machine.current.map_bindings_modifyInnermost fun _ => rfl)
  flagsUnset machine _ :=
    of_map_bindings_eq (machine.current.map_bindings_modifyInnermost fun _ => rfl)
  scopeOpened machine scope _ := pushScope machine scope
  scopeClosed _ inside := inside.popScope
  frameOpened machine frame _ := pushFrame machine frame
  frameClosed _ inside := inside.popFrame
  stored _ _ _ found assignable _ := store found assignable _
  variableDeclared machine _ _ fresh declares :=
    modifyCurrent (Machine.Retains.maintained.variableDeclared machine fresh declares)
      fun _ _ _ found => Frame.binding?_of_declareVariable declares found
  callableDeclared machine declared _ :=
    of_map_bindings_eq (machine.current.map_bindings_declareCallable declared)

end Machine.Upholds

/-! ## Main statement -/

/-- The scopes and the constants of a machine are there on a later one. -/
structure Machine.KeepsConstants (machine after : Machine) : Prop where
  scopes : ∀ height frame level scope, machine.stack.frame? height = some frame →
    frame.scope? level = some scope →
      ∃ later laterScope, after.stack.frame? height = some later ∧
        later.scope? level = some laterScope
  constants : ∀ site binding, machine.stack.binding? site = some binding →
    binding.declarator.isMutable = false →
      ∃ later, after.stack.binding? site = some later ∧
        later.declarator = binding.declarator ∧ later.value = binding.value ∧
        later.initialized = binding.initialized

theorem Machine.Upholds.keepsConstants {machine after : Machine} (upholds : machine.Upholds after) :
    machine.KeepsConstants after where
  scopes height frame level scope frameFound scopeFound := by
    obtain ⟨later, laterFound, longer⟩ := upholds.scopes height frame frameFound
    have within : level < later.scopes.length :=
      Nat.lt_of_lt_of_le (Height.lt_of_get?_eq_some scopeFound) longer
    refine ⟨later, later.scopes[later.scopes.length - 1 - level], laterFound, ?_⟩
    rw [Frame.scope?, Height.get?, if_pos within, List.getElem?_eq_getElem]
  constants site binding found unassignable := by
    obtain ⟨later, laterFound, upheld⟩ := upholds.bindings site binding found
    obtain ⟨value, initialized⟩ := upheld.constant unassignable
    exact ⟨later, laterFound, upheld.declarator, value, initialized⟩

/-- However the evaluation of an expression or the execution of a statement ends, every
scope of every frame is still open, and every variable that may not be assigned is still
there, with the declarator and the value that it had, and initialized if and only if it
was. -/
theorem immutable_variables_never_change (maxDepth fuel : Nat) (machine : Machine) :
    (∀ expression, ((evaluate maxDepth fuel expression : Action Value) machine).Leaves
      machine.KeepsConstants) ∧
    (∀ statement, ((execute maxDepth fuel statement : Action Flow) machine).Leaves
      machine.KeepsConstants) := by
  have maintains := evaluation_maintains Machine.Upholds.maintained maxDepth fuel
  constructor
  · intro expression
    have keeps := (maintains.1 expression machine).mono fun _ => Machine.Upholds.keepsConstants
    rw [← Tracing.action_evaluate]
    exact keeps.left
  · intro statement
    have keeps := (maintains.2.1 statement machine).mono fun _ => Machine.Upholds.keepsConstants
    rw [← Tracing.action_execute]
    exact keeps.left

/-- A constant and a variable are passed to parameters that may be assigned.  The call
assigns both parameters and fails in a block: its frame is left without a scope, the
variable has been assigned, and the constant has not. -/
theorem failing_call_keeps_constant :
    let place : Span := .firstCharacter
    let constant : Variable := .holding ⟨place, false, .fact, "c"⟩ (.fact true)
    let assignable : Variable := .holding ⟨place, true, .fact, "v"⟩ (.fact true)
    let machine : Machine := Machine.initial.modifyCurrent
      fun frame => (frame.insertVariable constant).insertVariable assignable
    let assignment (name : String) : Statement :=
      .expression (.assign place (.identifier place name) (.literal place (.fact false)))
    let function : Statement := .function
      ⟨place, "F", false, [⟨place, true, .fact, "p"⟩, ⟨place, true, .fact, "q"⟩], .nothing⟩
      (.compound place [assignment "p", assignment "q", assignment "x"])
    let statement : Statement := .compound place
      [function, .expression (.call place "F" [.identifier place "c", .identifier place "v"])]
    ∃ after, (execute 30 30 statement : Action Flow) machine =
        .halted (.failed (.undefinedVariable "x")) after ∧
      after.stack.frames.map (·.scopes.length) = [0, 3] ∧
      (after.stack.frames.flatMap Frame.bindings).map (fun binding =>
        (binding.name, binding.value)) = [("v", .fact false), ("c", .fact true)] ∧
      machine.KeepsConstants after := by
  intro place constant assignable machine assignment function statement
  -- The machine and the statement are taken as variables while the theorem is applied.
  have keeps : ∀ (statement : Statement) (machine : Machine) (outcome : Outcome Flow),
      (execute 30 30 statement : Action Flow) machine = outcome →
        outcome.Leaves machine.KeepsConstants := by
    rintro statement machine _ rfl
    exact (immutable_variables_never_change 30 30 machine).2 statement
  replace keeps := keeps statement machine
  have ends : (match (execute 30 30 statement : Action Flow) machine with
      | .halted reason after => some (reason, after.stack.frames.map (·.scopes.length),
          (after.stack.frames.flatMap Frame.bindings).map fun binding =>
            (binding.name, binding.value))
      | _ => none) = some (.failed (.undefinedVariable "x"), [0, 3],
        [("v", .fact false), ("c", .fact true)]) := by
    decide +kernel
  generalize (execute 30 30 statement : Action Flow) machine = outcome at keeps ends ⊢
  replace keeps := keeps outcome rfl
  cases outcome with
  | finished flow after => cases ends
  | exhausted => cases ends
  | halted reason after =>
      rw [Option.some_inj, Prod.mk.injEq, Prod.mk.injEq] at ends
      obtain ⟨rfl, lengths, bindings⟩ := ends
      exact ⟨after, rfl, lengths, bindings, keeps⟩

end Plainspoken
