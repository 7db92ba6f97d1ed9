import Plainspoken.Proofs.Scopes

/-!
# The standard library cannot be replaced

The routines are declared in the second scope of the program's frame, and calls look
there first.  A declaration is checked against that frame, whatever frame it is made in,
so that nothing else is ever declared under the name and number of arguments of a
routine.  The scope itself stays open: blocks of the program open scopes above it, and
what is closed after a halted call is closed in the frame of that call.

A call of a routine therefore runs the routine, on every machine that a session passes
through.
-/

namespace Plainspoken

open Stepping Evaluation

namespace Routine

/-- The number of arguments with which a routine is called. -/
def arity (routine : Routine) : Nat :=
  routine.entry.callable.arity

theorem entry_routine (routine : Routine) : routine.entry.routine = some routine := by
  cases routine <;> rfl

/-- Routines have keys of their own. -/
theorem eq_of_entry_answers {routine other : Routine}
    (answers : other.entry.callable.answers routine.name routine.arity = true) :
    other = routine := by
  have distinct : ∀ routine ∈ all, ∀ other ∈ all,
      other.entry.callable.answers routine.name routine.arity = true → other = routine := by
    decide
  exact distinct routine routine.mem_all other other.mem_all answers

end Routine

/-! ## Scopes and frames -/

/-- What a scope has under the key of a routine is that routine. -/
def Scope.Unchallenged (scope : Scope) : Prop :=
  ∀ entry ∈ scope.entries, ∀ routine : Routine,
    entry.callable.answers routine.name routine.arity = true → entry = routine.entry

namespace Scope.Unchallenged

theorem of_entries_eq_nil {scope : Scope} (without : scope.entries = []) :
    scope.Unchallenged := by
  intro entry member
  rw [without] at member
  cases member

theorem of_opened {scope : Scope} (opened : scope.Opened) : scope.Unchallenged := by
  apply of_entries_eq_nil
  cases opened <;> rfl

theorem library : Routine.library.Unchallenged := by
  intro entry member routine answers
  obtain ⟨other, -, rfl⟩ := List.mem_map.mp member
  rw [Routine.eq_of_entry_answers answers]

theorem of_entries_eq {scope after : Scope} (unchallenged : scope.Unchallenged)
    (same : after.entries = scope.entries) : after.Unchallenged := by
  unfold Scope.Unchallenged
  rw [same]
  exact unchallenged

theorem insertEntry {scope : Scope} (unchallenged : scope.Unchallenged) {declared : Callable}
    (free : ∀ routine : Routine, declared.answers routine.name routine.arity = false) :
    (scope.insertEntry ⟨declared, none⟩).Unchallenged := by
  intro entry member routine answers
  rcases List.mem_cons.mp member with rfl | isEarlier
  · rw [free routine] at answers
    cases answers
  · exact unchallenged entry (List.mem_filter.mp isEarlier).1 routine answers

private theorem eq_of_declared? {scope : Scope} (unchallenged : scope.Unchallenged)
    {routine : Routine}
    {entry : Entry} (found : scope.declared? routine.name routine.arity = some entry) :
    entry = routine.entry :=
  unchallenged entry (List.mem_of_find?_eq_some found) routine
    (Callable.answers_of_declared? found)

end Scope.Unchallenged

theorem Frame.Opened.unchallenged {frame : Frame} (opened : frame.Opened) :
    frame.Throughout Scope.Unchallenged := by
  have start (name : String) (span : Span) (returns : ValueType) :
      (Frame.start name span returns).Throughout Scope.Unchallenged :=
    List.forall_mem_singleton.mpr (.of_entries_eq_nil rfl)
  cases opened with
  | function signature span bound =>
      apply Frame.Throughout.modifyInnermost
      · apply (start _ _ _).foldl_insertVariable
        intro binding _ scope unchallenged
        exact unchallenged.of_entries_eq rfl
      · intro scope unchallenged
        exact unchallenged.of_entries_eq rfl
  | pattern signature span value site =>
      apply Frame.Throughout.modifyInnermost
      · apply Frame.Throughout.modifyInnermost
        · apply (start _ _ _).modifyInnermost
          intro scope unchallenged
          exact unchallenged.of_entries_eq rfl
        · intro scope unchallenged
          exact unchallenged.of_entries_eq rfl
      · intro scope unchallenged
        exact unchallenged.of_entries_eq rfl

/-- The second scope of a frame declares all routines. -/
def Frame.Equipped (frame : Frame) : Prop :=
  ∀ routine : Routine,
    Height.get? (frame.column routine.name routine.arity) 1 = some (some routine.entry)

namespace Frame.Equipped

variable {frame : Frame} (equipped : frame.Equipped)

include equipped

theorem of_column_eq {after : Frame}
    (same : ∀ routine : Routine,
      after.column routine.name routine.arity = frame.column routine.name routine.arity) :
    after.Equipped := by
  intro routine
  rw [same]
  exact equipped routine

theorem modifyInnermost {change : Scope → Scope}
    (kept : ∀ scope, (change scope).entries = scope.entries) :
    (frame.modifyInnermost change).Equipped := by
  apply equipped.of_column_eq
  intro routine
  rw [column_modifyInnermost change id fun scope => by simp [Scope.declared?, kept],
    List.modifyHead_id]
  rfl

private theorem one_lt_length : 1 < frame.scopes.length := by
  have within := Height.lt_of_get?_eq_some (equipped .print)
  simpa [column] using within

theorem pushScope (scope : Scope) : (frame.pushScope scope).Equipped := by
  intro routine
  have within := Height.lt_of_get?_eq_some (equipped routine)
  exact (Height.get?_cons_of_lt within).trans (equipped routine)

theorem popScope (more : 2 < frame.scopes.length) : frame.popScope.Equipped := by
  intro routine
  obtain ⟨name, span, returns, scopes⟩ := frame
  cases scopes with
  | nil => simp at more
  | cons inner outer =>
      have within : 1 < (outer.map (·.declared? routine.name routine.arity)).length := by
        simp only [List.length_cons] at more
        rw [List.length_map]
        omega
      exact (Height.get?_cons_of_lt within).symm.trans (equipped routine)

theorem exists_scope :
    ∃ scope, frame.scope? 1 = some scope ∧
      ∀ routine : Routine, scope.declared? routine.name routine.arity = some routine.entry := by
  have declares (routine : Routine) := equipped routine
  simp only [column, Height.get?_map] at declares
  cases found : frame.scope? 1 with
  | none =>
      have missing := declares .print
      rw [Frame.scope?] at found
      rw [found] at missing
      cases missing
  | some scope =>
      refine ⟨scope, rfl, fun routine => ?_⟩
      have declared := declares routine
      rw [Frame.scope?] at found
      rw [found] at declared
      exact Option.some.inj declared

/-- The key of a declaration that passes the check is none of a routine. -/
theorem not_answers_of_checkRoutine {declared : Callable}
    (free : frame.checkRoutine declared.name declared.arity = .ok ()) (routine : Routine) :
    declared.answers routine.name routine.arity = false := by
  by_contra answers
  rw [Bool.not_eq_false] at answers
  obtain ⟨name, arity⟩ := Callable.answers_iff.mp answers
  obtain ⟨scope, atOne, declares⟩ := equipped.exists_scope
  have member : routine.entry ∈ frame.scopes.filterMap
      (·.declared? declared.name declared.arity) := by
    rw [name, arity]
    exact List.mem_filterMap.mpr ⟨scope, Height.mem_of_get?_eq_some atOne, declares routine⟩
  have taken : (frame.scopes.filterMap (·.declared? declared.name declared.arity)).any
      (·.routine.isSome) = true :=
    List.any_eq_true.mpr ⟨routine.entry, member, by rw [routine.entry_routine]; rfl⟩
  simp [Frame.checkRoutine, taken] at free

/-- Where nothing else is declared under its key, a routine is found. -/
theorem resolve (unchallenged : frame.Throughout Scope.Unchallenged) (routine : Routine) :
    frame.resolve routine.name routine.arity = .ok (some routine.entry) := by
  obtain ⟨scope, atOne, declares⟩ := equipped.exists_scope
  have found : frame.scopes.findSome? (·.declared? routine.name routine.arity) =
      some routine.entry := by
    cases first : frame.scopes.findSome? (·.declared? routine.name routine.arity) with
    | none =>
        have missing := List.findSome?_eq_none_iff.mp first scope
          (Height.mem_of_get?_eq_some atOne)
        rw [declares routine] at missing
        cases missing
    | some entry =>
        obtain ⟨other, member, inOther⟩ := List.exists_of_findSome?_eq_some first
        rw [(unchallenged other member).eq_of_declared? inOther]
  have implemented : routine.entry.isImplemented = true := by
    simp [Entry.isImplemented, routine.entry_routine]
  simp [Frame.resolve, found, implemented]

end Frame.Equipped

/-! ## Machines -/

namespace CallStack

theorem globalFrame_mem_frames (stack : CallStack) : stack.globalFrame ∈ stack.frames := by
  have found := stack.frame?_zero
  rw [frame?_eq] at found
  exact Height.mem_of_get?_eq_some found

theorem globalFrame_push (stack : CallStack) (frame : Frame) :
    (stack.push frame).globalFrame = stack.globalFrame := by
  have same : (stack.push frame).frame? 0 = stack.frame? 0 := by
    rw [frame?_push, if_neg (Nat.succ_ne_zero _).symm]
  rw [frame?_zero, frame?_zero] at same
  exact Option.some.inj same

theorem globalFrame_pop (stack : CallStack) : stack.pop.globalFrame = stack.globalFrame := by
  cases above : stack.height with
  | zero =>
      obtain ⟨current, callers⟩ := stack
      cases List.length_eq_zero_iff.mp above
      rfl
  | succ height =>
      have same : stack.pop.frame? 0 = stack.frame? 0 := frame?_pop stack (by omega)
      rw [frame?_zero, frame?_zero] at same
      exact Option.some.inj same

theorem globalFrame_of_height_eq_zero {stack : CallStack} (lowest : stack.height = 0) :
    stack.globalFrame = stack.current := by
  rw [globalFrame, List.length_eq_zero_iff.mp lowest]
  rfl

theorem globalFrame_modifyCurrent (stack : CallStack) (change : Frame → Frame) :
    (stack.modifyCurrent change).globalFrame =
      if stack.height = 0 then change stack.current else stack.globalFrame := by
  have found := stack.frame?_modifyCurrent change 0
  rw [frame?_zero, frame?_zero] at found
  split
  · next lowest => simpa [lowest] using found
  · next above => simpa [Ne.symm above] using found

end CallStack

/-- All routines are declared, and nothing else is under their keys. -/
structure Machine.Immune (machine : Machine) : Prop where
  equipped : machine.stack.globalFrame.Equipped
  unchallenged : machine.Everywhere Scope.Unchallenged

namespace Machine.Immune

theorem initial : Machine.initial.Immune where
  equipped routine := by cases routine <;> rfl
  unchallenged := by
    intro frame member
    rw [List.mem_singleton.mp member]
    exact List.forall_mem_cons.mpr
      ⟨.library, List.forall_mem_singleton.mpr (.of_entries_eq_nil rfl)⟩

variable {machine : Machine} (immune : machine.Immune)

include immune

theorem modifyCurrent {change : Frame → Frame}
    (equipped : machine.current.Equipped → (change machine.current).Equipped)
    (unchallenged : (change machine.current).Throughout Scope.Unchallenged) :
    (machine.modifyCurrent change).Immune := by
  refine ⟨?_, immune.unchallenged.modifyCurrent unchallenged⟩
  rw [Machine.modifyCurrent, CallStack.globalFrame_modifyCurrent]
  have before := immune.equipped
  split
  · next lowest =>
    rw [CallStack.globalFrame_of_height_eq_zero lowest] at before
    exact equipped before
  · exact before

theorem modifyInnermost {change : Scope → Scope}
    (kept : ∀ scope, (change scope).entries = scope.entries) :
    (machine.modifyCurrent (·.modifyInnermost change)).Immune :=
  immune.modifyCurrent (fun equipped => equipped.modifyInnermost kept)
    (immune.unchallenged.current.modifyInnermost fun scope unchallenged =>
      unchallenged.of_entries_eq (kept scope))

theorem pushScope {scope : Scope} (opened : scope.Opened) : (machine.pushScope scope).Immune :=
  immune.modifyCurrent (fun equipped => equipped.pushScope scope)
    (immune.unchallenged.current.pushScope (.of_opened opened))

/-- The scope of the routines is not closed with one that was opened above it. -/
theorem popScope {after : Machine} {scope : Scope} (afterImmune : after.Immune)
    (retains : (machine.pushScope scope).Retains after) : after.popScope.Immune := by
  refine ⟨?_, afterImmune.unchallenged.popScope⟩
  have equipped := afterImmune.equipped
  rw [Machine.popScope, Machine.modifyCurrent, CallStack.globalFrame_modifyCurrent]
  split
  · next lowest =>
    rw [CallStack.globalFrame_of_height_eq_zero lowest] at equipped
    apply equipped.popScope
    have isGlobal : machine.stack.height = 0 := by
      have above : machine.stack.height ≤ after.stack.height := retains.height_le
      omega
    have before := immune.equipped
    rw [CallStack.globalFrame_of_height_eq_zero isGlobal] at before
    obtain ⟨later, found, longer⟩ := retains _ _ (machine.pushScope scope).stack.frame?_height
    rw [show (machine.pushScope scope).stack.height = after.stack.height from
      isGlobal.trans lowest.symm, CallStack.frame?_height] at found
    cases found
    exact Nat.lt_of_lt_of_le (Nat.succ_lt_succ before.one_lt_length) longer
  · exact equipped

theorem pushFrame {frame : Frame} (opened : frame.Opened) : (machine.pushFrame frame).Immune where
  equipped := by
    rw [Machine.pushFrame, CallStack.globalFrame_push]
    exact immune.equipped
  unchallenged := immune.unchallenged.pushFrame opened.unchallenged

theorem popFrame : machine.popFrame.Immune where
  equipped := by
    rw [Machine.popFrame, CallStack.globalFrame_pop]
    exact immune.equipped
  unchallenged := immune.unchallenged.popFrame

theorem store (site : Site) (value : Value) : (machine.store site value).Immune where
  equipped := by
    have alike := (CallStack.Alike.store machine site value).globalFrame
    apply immune.equipped.of_column_eq
    intro routine
    exact alike.column routine.name routine.arity
  unchallenged := by
    apply immune.unchallenged.store
    intro frame scope frameFound scopeFound
    rw [CallStack.frame?_eq] at frameFound
    have unchallenged := immune.unchallenged frame (Height.mem_of_get?_eq_some frameFound) scope
      (Height.mem_of_get?_eq_some scopeFound)
    exact unchallenged.of_entries_eq rfl

theorem declareVariable {binding : Variable} {frame : Frame}
    (declares : machine.current.declareVariable binding = .ok frame) :
    (machine.modifyCurrent fun _ => frame).Immune := by
  unfold Frame.declareVariable at declares
  split at declares
  · cases declares
  · cases declares
    exact immune.modifyInnermost fun _ => rfl

theorem declareCallable {declared : Callable}
    (free : machine.stack.globalFrame.checkRoutine declared.name declared.arity = .ok ()) :
    (machine.modifyCurrent fun _ => (machine.current.declareCallable declared).2).Immune := by
  have otherKey := immune.equipped.not_answers_of_checkRoutine free
  apply immune.modifyCurrent
  · intro equipped
    apply equipped.of_column_eq
    intro routine
    exact machine.current.column_declareCallable_of_not_answers (otherKey routine)
  · exact immune.unchallenged.current.declareCallable fun scope unchallenged =>
      unchallenged.insertEntry otherKey

end Machine.Immune

/-- Evaluation keeps machines immune.  What closing a scope closes is known from the
scopes that stay open, so that both are maintained together. -/
theorem immune_maintained : Machine.Maintained fun machine after =>
    machine.Retains after ∧ (machine.Immune → after.Immune) where
  refl machine := ⟨.refl machine, fun immune => immune⟩
  trans firstSecond secondThird :=
    ⟨firstSecond.1.trans secondThird.1, fun immune => secondThird.2 (firstSecond.2 immune)⟩
  noted machine depth lastValue emitted :=
    ⟨Machine.Retains.maintained.noted machine depth lastValue emitted,
      fun immune => ⟨immune.equipped, immune.unchallenged⟩⟩
  marked machine span :=
    ⟨Machine.Retains.maintained.marked machine span,
      fun immune => immune.modifyCurrent (fun equipped => equipped.of_column_eq fun _ => rfl)
        immune.unchallenged.current⟩
  flagsSet machine flags :=
    ⟨Machine.Retains.maintained.flagsSet machine flags,
      fun immune => immune.modifyInnermost fun _ => rfl⟩
  flagsUnset machine flags :=
    ⟨Machine.Retains.maintained.flagsUnset machine flags,
      fun immune => immune.modifyInnermost fun _ => rfl⟩
  scopeOpened machine _ opened :=
    ⟨Machine.Retains.maintained.scopeOpened machine opened, fun immune => immune.pushScope opened⟩
  scopeClosed opened inside :=
    ⟨Machine.Retains.maintained.scopeClosed opened inside.1,
      fun immune => immune.popScope (inside.2 (immune.pushScope opened)) inside.1⟩
  frameOpened machine _ opened :=
    ⟨Machine.Retains.maintained.frameOpened machine opened, fun immune => immune.pushFrame opened⟩
  frameClosed opened inside :=
    ⟨Machine.Retains.maintained.frameClosed opened inside.1,
      fun immune => (inside.2 (immune.pushFrame opened)).popFrame⟩
  stored machine site _ found assignable value :=
    ⟨Machine.Retains.maintained.stored machine found assignable value,
      fun immune => immune.store site _⟩
  variableDeclared machine _ _ fresh declares :=
    ⟨Machine.Retains.maintained.variableDeclared machine fresh declares,
      fun immune => immune.declareVariable declares⟩
  callableDeclared machine _ free :=
    ⟨Machine.Retains.maintained.callableDeclared machine free,
      fun immune => immune.declareCallable free⟩

theorem immune_invariant : Machine.Invariant Machine.Immune :=
  immune_maintained.invariant .initial fun _ _ maintains => maintains.2

/-! ## Calls -/

section Calls

variable {M : Type → Type} [Stepping M]

/-- Calls a routine: its arguments are bound to its parameters, and it runs in a frame
of its own.  No statement is executed for it. -/
def callRoutine (evaluate : Expression → M Value) (routine : Routine)
    (arguments : List Expression) (span : Span) : M Value :=
  match routine.entry.callable, arguments with
  | .function signature _, arguments => do
      let expected ← read (·.current.hasFlags .onlyExpectValue)
      if signature.returns = .nothing ∧ expected = true then fail .returnedNothing
      else
        let parameters ← bindArguments evaluate arguments signature.parameters
        update (·.mark span)
        update (·.pushFrame (functionFrame signature span parameters))
        let value ← runRoutine evaluate routine
        update (·.popFrame)
        return if signature.returns = .nothing then .nothing else value
  | .pattern signature _, argument :: _ => do
      let site ← read (·.argumentSite? argument)
      let value ← usedValue evaluate argument
      update (·.mark span)
      update (·.pushFrame
        (patternFrame signature span (value.cast signature.parameter.type) site))
      let _ ← runRoutine evaluate routine
      update (·.popFrame)
      return .nothing
  | .pattern _ _, [] => return .nothing

end Calls

theorem Machine.Immune.resolve {machine : Machine} (immune : machine.Immune)
    (routine : Routine) :
    Evaluation.resolve machine routine.name routine.arity = .ok (some routine.entry) := by
  have global : machine.stack.globalFrame.Throughout Scope.Unchallenged :=
    immune.unchallenged _ machine.stack.globalFrame_mem_frames
  rw [Evaluation.resolve, immune.equipped.resolve global routine]
  rfl

/-- On an immune machine, a call under the key of a routine is a call of the routine. -/
theorem Machine.Immune.call {machine : Machine} (immune : machine.Immune)
    (evaluate : Expression → Action Value) (execute : Statement → Action Flow)
    (routine : Routine) {arguments : List Expression}
    (number : arguments.length = routine.arity) (span : Span) :
    Evaluation.call evaluate execute routine.name arguments span machine =
      callRoutine evaluate routine arguments span machine := by
  have resolved := immune.resolve routine
  rw [← number] at resolved
  change Action.andThen
    (ofExcept (Evaluation.resolve machine routine.name arguments.length)) _ machine = _
  rw [resolved]
  cases routine with
  | fizzBuzz =>
      -- the only routine that is a pattern
      cases arguments with
      | nil => rfl
      | cons argument rest => rfl
  | _ => rfl

/-- On every machine that a session passes through, the second scope of the program's
frame declares all routines, and no scope of any frame has anything else under the key of
a routine.  A call under such a key runs the routine. -/
theorem routines_are_immune (machine : Machine) (passed : machine.Passed) :
    (∃ scope, machine.stack.globalFrame.scope? 1 = some scope ∧
      ∀ routine : Routine, scope.declared? routine.name routine.arity = some routine.entry) ∧
    (∀ frame ∈ machine.stack.frames, ∀ scope ∈ frame.scopes, ∀ entry ∈ scope.entries,
      ∀ routine : Routine, entry.callable.answers routine.name routine.arity = true →
        entry = routine.entry) ∧
    ∀ (evaluate : Expression → Action Value) (execute : Statement → Action Flow)
      (routine : Routine) (arguments : List Expression) (span : Span),
      arguments.length = routine.arity →
        call evaluate execute routine.name arguments span machine =
          callRoutine evaluate routine arguments span machine := by
  have immune := immune_invariant.of_passed passed
  refine ⟨immune.equipped.exists_scope, immune.unchallenged, ?_⟩
  intro evaluate execute routine arguments span number
  exact immune.call evaluate execute routine number span

/-- A function that declares a `Print` of its own fails, and its frame stays open.  On
the machine that is left, `Print` is the routine as before, and emits its line. -/
theorem print_is_immune_after_failed_call :
    let place : Span := .firstCharacter
    let own : Statement := .function
      ⟨place, "Print", false, [⟨place, false, .text, "t"⟩], .nothing⟩ (.compound place [])
    let statements : List Statement :=
      [.function ⟨place, "F", false, [], .nothing⟩ (.compound place [own]),
        .compound place [.expression (.call place "F" [])]]
    let line : List Expression := [.literal place (.text "hello")]
    let calling : Action Value :=
      call (evaluate Limits.standard.maxDepth 2) (execute Limits.standard.maxDepth 2)
        "Print" line place
    let printing : Action Value :=
      callRoutine (evaluate Limits.standard.maxDepth 2) .print line place
    ∃ performance machine,
      Session.performOn? Limits.standard.maxDepth 12 statements .initial =
        some (performance, machine) ∧
      performance.halt = some (.failed (.builtinRedefinition "Print")) ∧
      machine.stack.frames.map (·.scopes.length) = [0, 3] ∧
      machine.Passed ∧
      calling machine = printing machine ∧
      ∃ after, calling machine = .finished .nothing after ∧ after.emitted.lines = ["hello"] := by
  intro place own statements line calling printing
  obtain ⟨outcome, isOutcome⟩ : ∃ outcome, outcome =
      Session.performOn? Limits.standard.maxDepth 12 statements .initial := ⟨_, rfl⟩
  have fails : outcome.map (fun performed => (performed.1.halt,
      performed.2.stack.frames.map (·.scopes.length))) =
        some (some (.failed (.builtinRedefinition "Print")), [0, 3]) := by
    rw [isOutcome]
    decide +kernel
  have prints : outcome.bind (fun performed =>
      match calling performed.2 with
      | .finished value after => some (value, after.emitted.lines)
      | _ => none) = some (.nothing, ["hello"]) := by
    rw [isOutcome]
    decide +kernel
  obtain ⟨⟨performance, machine⟩, performs, isFailure⟩ := Option.map_eq_some_iff.mp fails
  have passed : machine.Passed := .resting (.perform (.start .standard) (isOutcome ▸ performs))
  obtain ⟨halts, frames⟩ := Prod.mk.inj isFailure
  refine ⟨performance, machine, isOutcome ▸ performs, halts, frames, passed, ?_, ?_⟩
  · exact (routines_are_immune machine passed).2.2 _ _ .print line place rfl
  · rw [performs, Option.bind_some] at prints
    split at prints
    · next value after finishes =>
      obtain ⟨isNothing, lines⟩ := Prod.mk.inj (Option.some.inj prints)
      exact ⟨after, isNothing ▸ finishes, lines⟩
    · cases prints

end Plainspoken
