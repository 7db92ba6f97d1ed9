import Plainspoken.Proofs.Likeness

/-!
# What a statement may leave behind

A statement declares variables and callables in the innermost scope of the
current frame, and completes declarations in the scopes around it.  A scope is
completed if all that changed in it are values and declarations that now have a
body; it is extended if moreover it has new variables and callables, remembers
another condition or has left a loop.

A frame is extended if its innermost scope is extended and the others are
completed, and completed if all of them are.  The operations on frames that
statements perform extend a frame, and closing a scope that was opened leaves a
completed one.
-/

namespace Plainspoken

open List (Forall₂)

/-! ## Entries -/

/-- One entry has taken the place of another one: it overrides a declaration
without a body and completes it with one. -/
structure Entry.Completes (completed declared : Entry) : Prop where
  overrides : completed.callable.overrides = true
  forward : declared.isImplemented = false
  implemented : completed.isImplemented = true
  agrees : completed.callable.conflict declared = none

namespace Callable

theorem functionConflict_bodies {signature earlier : FunctionSignature}
    {body earlierBody : Statement}
    (agreed : functionConflict signature body earlier earlierBody = none) :
    earlierBody.isEmpty = true ∧ body.isEmpty = false := by
  unfold functionConflict at agreed
  by_cases returns : earlier.returns = signature.returns
  · cases earlierEmpty : earlierBody.isEmpty with
    | false => simp [returns, earlierEmpty] at agreed
    | true =>
        cases bodyEmpty : body.isEmpty with
        | false => exact ⟨rfl, rfl⟩
        | true => simp [returns, earlierEmpty, bodyEmpty] at agreed
  · simp [returns] at agreed

theorem patternConflict_bodies {signature earlier : PatternSignature}
    {body earlierBody : Statement}
    (agreed : patternConflict signature body earlier earlierBody = none) :
    earlierBody.isEmpty = true ∧ body.isEmpty = false := by
  unfold patternConflict at agreed
  cases earlierEmpty : earlierBody.isEmpty with
  | false => simp [earlierEmpty] at agreed
  | true =>
      cases bodyEmpty : body.isEmpty with
      | false => exact ⟨rfl, rfl⟩
      | true => simp [earlierEmpty, bodyEmpty] at agreed

/-- A declaration agrees with an earlier one only if it gives a body to one
that had none. -/
theorem bodies_of_conflict_eq_none {declared : Callable} {entry : Entry}
    (agreed : declared.conflict entry = none) :
    entry.isImplemented = false ∧ declared.hasBody = true := by
  obtain ⟨earlier, routine⟩ := entry
  cases routine with
  | some routine => simp [conflict] at agreed
  | none =>
      cases declared with
      | function signature body =>
          cases earlier with
          | function earlierSignature earlierBody =>
              obtain ⟨earlierEmpty, bodyFull⟩ := functionConflict_bodies agreed
              simp [Entry.isImplemented, hasBody, earlierEmpty, bodyFull]
          | pattern earlierSignature earlierBody => simp [conflict] at agreed
      | pattern signature body =>
          cases earlier with
          | function earlierSignature earlierBody => simp [conflict] at agreed
          | pattern earlierSignature earlierBody =>
              obtain ⟨earlierEmpty, bodyFull⟩ := patternConflict_bodies agreed
              simp [Entry.isImplemented, hasBody, earlierEmpty, bodyFull]

end Callable

private theorem Entry.Completes.of_conflict_eq_none {declared : Callable} {entry : Entry}
    (overrides : declared.overrides = true) (agreed : declared.conflict entry = none) :
    Entry.Completes ⟨declared, none⟩ entry := by
  obtain ⟨forward, body⟩ := Callable.bodies_of_conflict_eq_none agreed
  exact ⟨overrides, forward, by simp [Entry.isImplemented, body], agreed⟩

/-! ## Scopes -/

/-- A scope in which nothing but values and completed declarations changed. -/
structure Scope.Completed (before after : Scope) : Prop where
  flags : after.flags = before.flags
  bindings : Forall₂ Variable.Alike before.bindings after.bindings
  entries : ∀ name arity, after.declared? name arity = before.declared? name arity ∨
    ∃ declared completed, before.declared? name arity = some declared ∧
      after.declared? name arity = some completed ∧ completed.Completes declared

/-- A scope that keeps its variables and may have new ones.  Of its flags it may
remember another condition, and have left a loop. -/
structure Scope.Extended (before after : Scope) : Prop where
  call : after.flags.call = before.flags.call
  matching : after.flags.matching = before.flags.matching
  expectValue : after.flags.expectValue = before.flags.expectValue
  loop : after.flags.loop = true → before.flags.loop = true
  bindings : ∃ added kept, after.bindings = added ++ kept ∧
    Forall₂ Variable.Alike before.bindings kept

theorem Scope.Alike.completed {before after : Scope} (alike : before.Alike after) :
    before.Completed after :=
  ⟨alike.flags, alike.bindings, fun name arity => by
    simp [Scope.declared?, alike.entries]⟩

theorem Scope.Completed.extended {before after : Scope} (completed : before.Completed after) :
    before.Extended after where
  call := by rw [completed.flags]
  matching := by rw [completed.flags]
  expectValue := by rw [completed.flags]
  loop := by rw [completed.flags]; exact id
  bindings := ⟨[], after.bindings, rfl, completed.bindings⟩

theorem Scope.Completed.trans {first second third : Scope}
    (firstSecond : first.Completed second) (secondThird : second.Completed third) :
    first.Completed third := by
  refine ⟨secondThird.flags.trans firstSecond.flags,
    forall₂_trans firstSecond.bindings secondThird.bindings Variable.Alike.trans, ?_⟩
  intro name arity
  rcases firstSecond.entries name arity with same | ⟨declared, completed, found, found', completes⟩
  · rw [← same]
    exact secondThird.entries name arity
  · rcases secondThird.entries name arity with same' | ⟨declared', _, found'', _, completes'⟩
    · exact .inr ⟨declared, completed, found, same'.trans found', completes⟩
    · -- a declaration that has a body is never completed again
      have same : completed = declared' := by
        rw [found'] at found''
        exact Option.some.inj found''
      have contradiction := completes'.forward
      rw [← same, completes.implemented] at contradiction
      cases contradiction

theorem Scope.Extended.trans {first second third : Scope}
    (firstSecond : first.Extended second) (secondThird : second.Extended third) :
    first.Extended third := by
  refine ⟨secondThird.call.trans firstSecond.call,
    secondThird.matching.trans firstSecond.matching,
    secondThird.expectValue.trans firstSecond.expectValue,
    fun inLoop => firstSecond.loop (secondThird.loop inLoop), ?_⟩
  obtain ⟨added, kept, split, alike⟩ := firstSecond.bindings
  obtain ⟨added', kept', split', alike'⟩ := secondThird.bindings
  rw [split] at alike'
  have keptAlike : Forall₂ Variable.Alike kept (kept'.drop added.length) := by
    simpa using List.forall₂_drop added.length alike'
  refine ⟨added' ++ kept'.take added.length, kept'.drop added.length, ?_,
    forall₂_trans alike keptAlike Variable.Alike.trans⟩
  rw [split', List.append_assoc, List.take_append_drop]

/-! ## Frames and stacks -/

/-- The innermost scope is extended, and the others are completed. -/
inductive Frame.ScopesExtended : List Scope → List Scope → Prop where
  | none : ScopesExtended [] []
  | innermost {inner inner' : Scope} {outer outer' : List Scope}
      (extended : inner.Extended inner') (completed : Forall₂ Scope.Completed outer outer') :
      ScopesExtended (inner :: outer) (inner' :: outer')

theorem Frame.ScopesExtended.of_completed {before after : List Scope}
    (completed : Forall₂ Scope.Completed before after) :
    Frame.ScopesExtended before after := by
  cases completed with
  | nil => exact .none
  | cons inner outer => exact .innermost inner.extended outer

theorem Frame.ScopesExtended.trans {first second third : List Scope}
    (firstSecond : Frame.ScopesExtended first second)
    (secondThird : Frame.ScopesExtended second third) :
    Frame.ScopesExtended first third := by
  cases firstSecond with
  | none => exact secondThird
  | innermost inner outer =>
      cases secondThird with
      | innermost inner' outer' =>
          exact .innermost (inner.trans inner')
            (forall₂_trans outer outer' Scope.Completed.trans)

/-- A frame in which nothing but values, completed declarations and the place
it has reached changed. -/
structure Frame.Completed (before after : Frame) : Prop where
  name : after.name = before.name
  returns : after.returns = before.returns
  scopes : Forall₂ Scope.Completed before.scopes after.scopes

/-- A frame whose innermost scope is extended and whose other scopes are
completed. -/
structure Frame.Extended (before after : Frame) : Prop where
  name : after.name = before.name
  returns : after.returns = before.returns
  scopes : Frame.ScopesExtended before.scopes after.scopes

theorem Frame.Alike.completed {before after : Frame} (alike : before.Alike after) :
    before.Completed after :=
  ⟨alike.name, alike.returns, alike.scopes.imp fun _ _ => Scope.Alike.completed⟩

theorem Frame.Completed.extended {before after : Frame} (completed : before.Completed after) :
    before.Extended after :=
  ⟨completed.name, completed.returns, .of_completed completed.scopes⟩

theorem Frame.Extended.trans {first second third : Frame}
    (firstSecond : first.Extended second) (secondThird : second.Extended third) :
    first.Extended third :=
  ⟨secondThird.name.trans firstSecond.name, secondThird.returns.trans firstSecond.returns,
    firstSecond.scopes.trans secondThird.scopes⟩

/-- The machine after an expression: nothing but values, the place of the
current frame, the value evaluated last and what has been emitted changed. -/
structure Machine.Alike (before after : Machine) : Prop where
  depth : after.depth = before.depth
  stack : before.stack.Alike after.stack

/-- The machine after a block: declarations of the current frame may have been
completed. -/
structure Machine.Completed (before after : Machine) : Prop where
  depth : after.depth = before.depth
  current : before.current.Completed after.current
  callers : Forall₂ Frame.AlikeInPlace before.stack.callers after.stack.callers

/-- The machine after a statement: the current frame may have been extended. -/
structure Machine.Extended (before after : Machine) : Prop where
  depth : after.depth = before.depth
  current : before.current.Extended after.current
  callers : Forall₂ Frame.AlikeInPlace before.stack.callers after.stack.callers

namespace Machine

theorem Alike.refl (machine : Machine) : machine.Alike machine :=
  ⟨rfl, .refl machine.stack⟩

theorem Alike.trans {first second third : Machine} (firstSecond : first.Alike second)
    (secondThird : second.Alike third) : first.Alike third :=
  ⟨secondThird.depth.trans firstSecond.depth, firstSecond.stack.trans secondThird.stack⟩

theorem Alike.completed {before after : Machine} (alike : before.Alike after) :
    before.Completed after :=
  ⟨alike.depth, alike.stack.current.completed, alike.stack.callers⟩

theorem Completed.extended {before after : Machine} (completed : before.Completed after) :
    before.Extended after :=
  ⟨completed.depth, completed.current.extended, completed.callers⟩

theorem Alike.extended {before after : Machine} (alike : before.Alike after) :
    before.Extended after :=
  alike.completed.extended

theorem Extended.refl (machine : Machine) : machine.Extended machine :=
  (Alike.refl machine).extended

theorem Extended.trans {first second third : Machine} (firstSecond : first.Extended second)
    (secondThird : second.Extended third) : first.Extended third :=
  ⟨secondThird.depth.trans firstSecond.depth, firstSecond.current.trans secondThird.current,
    forall₂_trans firstSecond.callers secondThird.callers Frame.AlikeInPlace.trans⟩

instance : Std.Refl Machine.Alike :=
  ⟨Alike.refl⟩

instance : IsTrans Machine Machine.Alike :=
  ⟨fun _ _ _ => Alike.trans⟩

instance : Std.Refl Machine.Extended :=
  ⟨Extended.refl⟩

instance : IsTrans Machine Machine.Extended :=
  ⟨fun _ _ _ => Extended.trans⟩

end Machine

/-! ## Flags set meanwhile -/

namespace Flags

theorem union_onlyExpectValue_of_expectValue {flags : Flags} (expected : flags.expectValue = true) :
    flags.union onlyExpectValue = flags := by
  cases flags
  simp_all [union, onlyExpectValue, empty]

theorem union_without_onlyExpectValue {flags : Flags} (unexpected : flags.expectValue = false) :
    (flags.union onlyExpectValue).without onlyExpectValue = flags := by
  cases flags
  simp_all [union, without, onlyExpectValue, empty]

theorem union_without_onlyLoop (flags : Flags) :
    (flags.union onlyLoop).without onlyLoop = flags.without onlyLoop := by
  cases flags
  simp [union, without, onlyLoop, empty]

end Flags

/-! ## Declarations in a scope -/

namespace Scope

theorem insertVariable_bindings_of_binding?_eq_none {scope : Scope} {binding : Variable}
    (fresh : scope.binding? binding.name = none) :
    (scope.insertVariable binding).bindings = binding :: scope.bindings := by
  unfold Scope.binding? at fresh
  rw [List.find?_eq_none] at fresh
  simp only [Scope.insertVariable, List.cons.injEq, true_and, List.filter_eq_self]
  intro other member
  simpa using fresh other member

theorem declared?_insertEntry_of_answers {scope : Scope} {entry : Entry} {name : String}
    {arity : Nat} (answers : entry.callable.answers name arity = true) :
    (scope.insertEntry entry).declared? name arity = some entry := by
  simp [Scope.insertEntry, Scope.declared?, answers]

theorem declared?_insertEntry_of_not_answers {scope : Scope} {entry : Entry} {name : String}
    {arity : Nat} (otherwise : entry.callable.answers name arity = false) :
    (scope.insertEntry entry).declared? name arity = scope.declared? name arity := by
  simp only [Scope.insertEntry, Scope.declared?, List.find?_cons, otherwise, List.find?_filter]
  congr 1
  funext other
  -- an entry of this key is none of the key that is replaced
  cases answered : other.callable.answers name arity with
  | false => simp
  | true =>
      simp only [Callable.answers, Bool.and_eq_true, beq_iff_eq] at answered
      rw [← answered.1, ← answered.2] at otherwise
      simp only [Callable.answers, Bool.and_eq_false_iff, beq_eq_false_iff_ne] at otherwise
      have replaced : other.callable.answers entry.callable.name entry.callable.arity = false := by
        simp only [Callable.answers, Bool.and_eq_false_iff, beq_eq_false_iff_ne]
        exact otherwise.imp Ne.symm Ne.symm
      simp [replaced]

/-- A declaration that overrides and agrees with an entry completes it. -/
theorem Completed.insertEntry {scope : Scope} {declared : Callable} {entry : Entry}
    (found : scope.declared? declared.name declared.arity = some entry)
    (overrides : declared.overrides = true) (agreed : declared.conflict entry = none) :
    scope.Completed (scope.insertEntry ⟨declared, none⟩) := by
  refine ⟨rfl, (Scope.Alike.refl scope).bindings, ?_⟩
  intro name arity
  cases answers : declared.answers name arity with
  | false => exact .inl (declared?_insertEntry_of_not_answers answers)
  | true =>
      have key := answers
      simp only [Callable.answers, Bool.and_eq_true, beq_iff_eq] at key
      rw [← key.1, ← key.2] at answers ⊢
      exact .inr ⟨entry, ⟨declared, none⟩, found, declared?_insertEntry_of_answers answers,
        .of_conflict_eq_none overrides agreed⟩

end Scope

/-! ## Operations on frames -/

namespace Frame

variable {frame before after : Frame}

/-- A scope that was opened is closed again. -/
theorem Alike.popScope {scope : Scope} (alike : (before.pushScope scope).Alike after) :
    before.Alike after.popScope := by
  obtain ⟨name, returns, scopes⟩ := alike
  refine ⟨name, returns, ?_⟩
  simpa [Frame.pushScope, Frame.popScope] using List.forall₂_drop 1 scopes

theorem Extended.popScope {scope : Scope} (extended : (before.pushScope scope).Extended after) :
    before.Completed after.popScope := by
  obtain ⟨name, returns, scopes⟩ := extended
  refine ⟨name, returns, ?_⟩
  unfold Frame.popScope
  generalize after.scopes = scopesAfter at scopes
  cases scopes with
  | innermost _ completed => exact completed

/-- The flag of an expected value is set meanwhile and restored afterwards. -/
theorem Alike.restoreExpected (alike : (before.setFlags .onlyExpectValue).Alike after) :
    before.Alike (if before.innermostFlags.expectValue then after
      else after.unsetFlags .onlyExpectValue) := by
  obtain ⟨name, span, returns, scopes⟩ := before
  obtain ⟨nameAfter, spanAfter, returnsAfter, scopesAfter⟩ := after
  obtain ⟨sameName, sameReturns, scopesAlike⟩ := alike
  cases scopes with
  | nil =>
      cases scopesAlike
      exact ⟨sameName, sameReturns, .nil⟩
  | cons inner outer =>
      simp only [Frame.setFlags, Frame.modifyInnermost, List.modifyHead_cons] at scopesAlike
      cases scopesAlike with
      | cons innerAlike outerAlike =>
          have sameFlags := innerAlike.flags
          simp only [Scope.setFlags] at sameFlags
          split
          · next expected =>
            change inner.flags.expectValue = true at expected
            rw [Flags.union_onlyExpectValue_of_expectValue expected] at sameFlags
            exact ⟨sameName, sameReturns,
              .cons ⟨sameFlags, innerAlike.entries, innerAlike.bindings⟩ outerAlike⟩
          · next unexpected =>
            change ¬ inner.flags.expectValue = true at unexpected
            refine ⟨sameName, sameReturns,
              .cons ⟨?_, innerAlike.entries, innerAlike.bindings⟩ outerAlike⟩
            simp only [Scope.unsetFlags, sameFlags,
              Flags.union_without_onlyExpectValue (Bool.eq_false_iff.mpr unexpected)]

/-- What extends every scope extends a frame in the innermost one. -/
theorem Extended.modifyInnermost (frame : Frame) {change : Scope → Scope}
    (extended : ∀ scope : Scope, scope.Extended (change scope)) :
    frame.Extended (frame.modifyInnermost change) := by
  refine ⟨rfl, rfl, ?_⟩
  unfold Frame.modifyInnermost
  cases frame.scopes with
  | nil => exact .none
  | cons inner outer =>
      exact .innermost (extended inner)
        (List.forall₂_same.mpr fun scope _ => (Scope.Alike.refl scope).completed)

theorem Extended.setLastCondition (frame : Frame) :
    frame.Extended (frame.setFlags .onlyLastCondition) := by
  apply Extended.modifyInnermost frame
  intro scope
  refine ⟨?_, ?_, ?_, ?_, (Scope.Alike.refl scope).completed.extended.bindings⟩ <;>
    simp [Scope.setFlags, Flags.union, Flags.onlyLastCondition, Flags.empty]

theorem Extended.unsetLastCondition (frame : Frame) :
    frame.Extended (frame.unsetFlags .onlyLastCondition) := by
  apply Extended.modifyInnermost frame
  intro scope
  refine ⟨?_, ?_, ?_, ?_, (Scope.Alike.refl scope).completed.extended.bindings⟩ <;>
    simp [Scope.unsetFlags, Flags.without, Flags.onlyLastCondition, Flags.empty]

theorem Extended.unsetLoop (frame : Frame) :
    frame.Extended (frame.unsetFlags .onlyLoop) := by
  apply Extended.modifyInnermost frame
  intro scope
  refine ⟨?_, ?_, ?_, ?_, (Scope.Alike.refl scope).completed.extended.bindings⟩ <;>
    simp [Scope.unsetFlags, Flags.without, Flags.onlyLoop, Flags.empty]

theorem unsetLoop_setLoop (frame : Frame) :
    (frame.setFlags .onlyLoop).unsetFlags .onlyLoop = frame.unsetFlags .onlyLoop := by
  obtain ⟨name, span, returns, scopes⟩ := frame
  cases scopes with
  | nil => rfl
  | cons inner outer =>
      simp [Frame.setFlags, Frame.unsetFlags, Frame.modifyInnermost, Scope.setFlags,
        Scope.unsetFlags, Flags.union_without_onlyLoop]

/-- What extends a frame extends it also once both have left a loop. -/
theorem Extended.leaveLoop (extended : before.Extended after) :
    (before.unsetFlags .onlyLoop).Extended (after.unsetFlags .onlyLoop) := by
  obtain ⟨name, returns, scopes⟩ := extended
  refine ⟨name, returns, ?_⟩
  unfold Frame.unsetFlags Frame.modifyInnermost
  generalize before.scopes = scopesBefore at scopes
  generalize after.scopes = scopesAfter at scopes
  cases scopes with
  | none => exact .none
  | innermost inner outer =>
      have call := inner.call
      have matching := inner.matching
      have expectValue := inner.expectValue
      refine .innermost ⟨?_, ?_, ?_, ?_, inner.bindings⟩ outer <;>
        simp_all [Scope.unsetFlags, Flags.without, Flags.onlyLoop, Flags.empty]

/-- Declaring a variable adds it to the innermost scope; none has its name. -/
theorem Extended.declareVariable {binding : Variable}
    (declared : frame.declareVariable binding = .ok after) : frame.Extended after := by
  unfold Frame.declareVariable at declared
  split at declared
  · cases declared
  · next fresh =>
    cases declared
    rw [List.findSome?_eq_none_iff] at fresh
    refine ⟨rfl, rfl, ?_⟩
    unfold Frame.insertVariable Frame.modifyInnermost
    cases scopes : frame.scopes with
    | nil => exact .none
    | cons inner outer =>
        have innerFresh : inner.binding? binding.name = none :=
          fresh inner (by simp [scopes])
        refine .innermost ⟨rfl, rfl, rfl, id, [binding], inner.bindings,
          Scope.insertVariable_bindings_of_binding?_eq_none innerFresh, ?_⟩ ?_
        · exact (Scope.Alike.refl inner).bindings
        · exact List.forall₂_same.mpr fun scope _ => (Scope.Alike.refl scope).completed

/-- Checking a declaration against scopes completes entries of theirs at
most, whether or not it finds a conflict. -/
theorem completeIn_completed (declared : Callable) (scopes : List Scope) :
    Forall₂ Scope.Completed scopes (completeIn declared scopes).scopes := by
  induction scopes with
  | nil => exact .nil
  | cons scope outer ih =>
      have kept : scope.Completed scope := (Scope.Alike.refl scope).completed
      simp only [completeIn]
      split
      · exact .cons kept ih
      · exact .cons kept ih
      · next entry _ found =>
        split
        · exact .cons kept ih
        · next agreed =>
          refine .cons ?_ ih
          split
          · next overrides => exact .insertEntry found overrides agreed
          · exact kept

/-- The frame that a declaration leaves is extended, also where it fails. -/
theorem Extended.declareCallable (frame : Frame) (declared : Callable) :
    frame.Extended (frame.declareCallable declared).2 := by
  have completed : frame.Completed
      { frame with scopes := (completeIn declared frame.scopes).scopes } :=
    ⟨rfl, rfl, completeIn_completed declared frame.scopes⟩
  simp only [Frame.declareCallable]
  split
  · exact completed.extended
  · split
    · split
      · exact completed.extended
      · exact completed.extended
    · apply completed.extended.trans
      apply Extended.modifyInnermost
      intro scope
      exact ⟨rfl, rfl, rfl, id, (Scope.Alike.refl scope).completed.extended.bindings⟩

end Frame

end Plainspoken
