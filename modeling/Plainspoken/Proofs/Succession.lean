import Mathlib.Data.List.ReduceOption
import Plainspoken.Proofs.Scopes

/-!
# Declarations and definitions of one key

A frame develops by opening and closing scopes and by declarations that succeed.  A
key then has at most one declaration that waits for a body and one definition, which
stands further in and has the same signature.

What was declared last under a key is what a call finds.  A definition that overrides
settles in the scope of the declaration that it completes: nothing more can be declared
under its key, and it is found as long as that scope is open.
-/

namespace Plainspoken

open List (Forall₂)

/-! ## Signatures -/

/-- Two declarations are of the same kind, have the same type of result, and their
parameters agree one by one. -/
inductive Callable.SameSignature : Callable → Callable → Prop where
  | function {first second : FunctionSignature} (firstBody secondBody : Statement)
      (returns : first.returns = second.returns)
      (parameters : Forall₂ (fun one other => one.agrees other = true)
        first.parameters second.parameters) :
      SameSignature (.function first firstBody) (.function second secondBody)
  | pattern {first second : PatternSignature} (firstBody secondBody : Statement)
      (parameter : first.parameter.agrees second.parameter = true) :
      SameSignature (.pattern first firstBody) (.pattern second secondBody)

theorem Declarator.agrees_iff {first second : Declarator} :
    first.agrees second = true ↔ first.isMutable = second.isMutable ∧
      first.type = second.type ∧ first.name = second.name := by
  simp [Declarator.agrees, and_assoc]

private theorem forall₂_agrees_of_firstDisagreement {givens expecteds : List Declarator}
    (same : givens.length = expecteds.length) (agree : firstDisagreement givens expecteds = none) :
    Forall₂ (fun given expected => given.agrees expected = true) givens expecteds := by
  induction givens generalizing expecteds with
  | nil =>
      cases expecteds with
      | nil => exact .nil
      | cons expected expecteds => cases same
  | cons given givens ih =>
      cases expecteds with
      | nil => cases same
      | cons expected expecteds =>
          simp only [firstDisagreement] at agree
          split at agree
          · next agrees => exact .cons agrees (ih (Nat.succ.inj same) agree)
          · cases agree

namespace Callable

theorem SameSignature.refl (declared : Callable) : declared.SameSignature declared := by
  cases declared with
  | function signature body =>
      refine .function body body rfl (List.forall₂_same.mpr fun parameter _ => ?_)
      exact Declarator.agrees_iff.mpr ⟨rfl, rfl, rfl⟩
  | pattern signature body =>
      exact .pattern body body (Declarator.agrees_iff.mpr ⟨rfl, rfl, rfl⟩)

theorem SameSignature.symm {first second : Callable} (same : first.SameSignature second) :
    second.SameSignature first := by
  have agreesSymm {one other : Declarator} (agrees : one.agrees other = true) :
      other.agrees one = true := by
    obtain ⟨mutability, type, name⟩ := Declarator.agrees_iff.mp agrees
    exact Declarator.agrees_iff.mpr ⟨mutability.symm, type.symm, name.symm⟩
  cases same with
  | function firstBody secondBody returns parameters =>
      exact .function secondBody firstBody returns.symm
        (parameters.flip.imp fun _ _ agrees => agreesSymm agrees)
  | pattern firstBody secondBody parameter =>
      exact .pattern secondBody firstBody (agreesSymm parameter)

theorem functionConflict_signatures {signature earlier : FunctionSignature}
    {body earlierBody : Statement}
    (agreed : functionConflict signature body earlier earlierBody = none) :
    signature.returns = earlier.returns ∧
      firstDisagreement signature.parameters earlier.parameters = none := by
  obtain ⟨earlierEmpty, bodyFull⟩ := functionConflict_bodies agreed
  unfold functionConflict at agreed
  by_cases returns : earlier.returns = signature.returns
  · refine ⟨returns.symm, ?_⟩
    simpa [returns, earlierEmpty, bodyFull] using agreed
  · simp [returns] at agreed

theorem patternConflict_parameters {signature earlier : PatternSignature}
    {body earlierBody : Statement}
    (agreed : patternConflict signature body earlier earlierBody = none) :
    signature.parameter.agrees earlier.parameter = true := by
  obtain ⟨earlierEmpty, bodyFull⟩ := patternConflict_bodies agreed
  simpa [patternConflict, earlierEmpty, bodyFull] using agreed

/-- A declaration agrees only with entries of its own signature. -/
theorem sameSignature_of_conflict_eq_none {declared : Callable} {entry : Entry}
    (arity : declared.arity = entry.callable.arity) (agreed : declared.conflict entry = none) :
    declared.SameSignature entry.callable := by
  obtain ⟨earlier, routine⟩ := entry
  cases routine with
  | some routine => simp [conflict] at agreed
  | none =>
      cases declared with
      | function signature body =>
          cases earlier with
          | pattern earlierSignature earlierBody => simp [conflict] at agreed
          | function earlierSignature earlierBody =>
              obtain ⟨returns, agree⟩ := functionConflict_signatures agreed
              exact .function body earlierBody returns
                (forall₂_agrees_of_firstDisagreement arity agree)
      | pattern signature body =>
          cases earlier with
          | function earlierSignature earlierBody => simp [conflict] at agreed
          | pattern earlierSignature earlierBody =>
              exact .pattern body earlierBody (patternConflict_parameters agreed)

end Callable

/-! ## The entries of a key -/

namespace Entry

/-- A declaration that waits for a body. -/
def IsForward (entry : Entry) : Prop :=
  entry.routine = none ∧ entry.callable.hasBody = false

/-- A declaration with a body. -/
def IsDefinition (entry : Entry) : Prop :=
  entry.routine = none ∧ entry.callable.hasBody = true

private theorem isForward_of_not_isImplemented {entry : Entry}
    (waits : entry.isImplemented = false) :
    entry.IsForward := by
  simpa [isImplemented, IsForward] using waits

/-- The entries that a key can have, the innermost first. -/
inductive Succession : List Entry → Prop where
  | none : Succession []
  | forward {entry : Entry} (isForward : entry.IsForward) : Succession [entry]
  | definition {entry : Entry} (isDefinition : entry.IsDefinition) : Succession [entry]
  /-- A definition stands further in than the declaration that it completes. -/
  | completed {definition forward : Entry} (isDefinition : definition.IsDefinition)
      (isForward : forward.IsForward)
      (same : definition.callable.SameSignature forward.callable) :
      Succession [definition, forward]

namespace Succession

variable {entries : List Entry}

/-- Closing scopes leaves the outer entries. -/
theorem of_suffix {rest : List Entry} (succession : Succession entries)
    (outer : rest <:+ entries) : Succession rest := by
  cases succession with
  | none =>
      cases List.suffix_nil.mp outer
      exact .none
  | forward isForward =>
      rcases List.suffix_cons_iff.mp outer with rfl | outer
      · exact .forward isForward
      · cases List.suffix_nil.mp outer
        exact .none
  | definition isDefinition =>
      rcases List.suffix_cons_iff.mp outer with rfl | outer
      · exact .definition isDefinition
      · cases List.suffix_nil.mp outer
        exact .none
  | completed isDefinition isForward same =>
      rcases List.suffix_cons_iff.mp outer with rfl | outer
      · exact .completed isDefinition isForward same
      · rcases List.suffix_cons_iff.mp outer with rfl | outer
        · exact .forward isForward
        · cases List.suffix_nil.mp outer
          exact .none

/-- A declaration agrees with nothing but one entry that waits for a body. -/
theorem of_agrees {declared : Callable} (succession : Succession entries)
    (agree : ∀ entry ∈ entries, declared.conflict entry = .none) :
    entries = [] ∨ ∃ forward, entries = [forward] := by
  cases succession with
  | none => exact .inl rfl
  | forward isForward => exact .inr ⟨_, rfl⟩
  | definition isDefinition => exact .inr ⟨_, rfl⟩
  | completed isDefinition isForward same =>
      obtain ⟨forward, -⟩ :=
        Callable.bodies_of_conflict_eq_none (agree _ List.mem_cons_self)
      simp [isImplemented, isDefinition.2] at forward

theorem sameSignature (succession : Succession entries) :
    ∀ first ∈ entries, ∀ second ∈ entries,
      first.callable.SameSignature second.callable := by
  cases succession with
  | none => simp
  | forward isForward => simp [Callable.SameSignature.refl]
  | definition isDefinition => simp [Callable.SameSignature.refl]
  | completed isDefinition isForward same => simp [Callable.SameSignature.refl, same, same.symm]

end Succession

end Entry

/-! ## Declarations that succeed -/

namespace Scope

theorem declared?_completedBy (scope : Scope) {declared : Callable}
    (overrides : declared.overrides = true) :
    (scope.completedBy declared).declared? declared.name declared.arity =
      (scope.declared? declared.name declared.arity).map fun _ => ⟨declared, none⟩ := by
  cases found : scope.entryFor? declared with
  | none =>
      rw [completedBy_of_entryFor?_eq_none found]
      rw [entryFor?] at found
      rw [found, Option.map_none]
  | some entry =>
      rw [completedBy_of_overrides overrides found]
      rw [entryFor?] at found
      rw [found, Option.map_some]
      exact declared?_insertEntry_of_answers declared.answers_self

end Scope

namespace Frame

/-- The entries of a key, the innermost first. -/
def declarations (frame : Frame) (name : String) (arity : Nat) : List Entry :=
  frame.scopes.filterMap (·.declared? name arity)

variable {frame : Frame} {declared : Callable} {name : String} {arity : Nat}

theorem mem_declarations {entry : Entry} :
    entry ∈ frame.declarations name arity ↔
      ∃ scope ∈ frame.scopes, scope.declared? name arity = some entry :=
  List.mem_filterMap

private theorem declarations_eq_reduceOption :
    frame.declarations name arity = (frame.column name arity).reduceOption := by
  rw [declarations, column, List.reduceOption, List.filterMap_map, Function.id_comp]

theorem declarations_declareCallable_of_not_answers
    (otherwise : declared.answers name arity = false) :
    (frame.declareCallable declared).2.declarations name arity =
      frame.declarations name arity := by
  rw [declarations_eq_reduceOption, declarations_eq_reduceOption,
    column_declareCallable_of_not_answers frame otherwise]

theorem head?_declarations :
    (frame.declarations name arity).head? =
      frame.scopes.findSome? (·.declared? name arity) :=
  List.head?_filterMap

/-- A call finds the innermost entry of a key. -/
theorem resolve_of_declarations {entry : Entry} {rest : List Entry}
    (entries : frame.declarations name arity = entry :: rest) :
    frame.resolve name arity =
      if entry.isImplemented then .ok (some entry) else .error entry.callable.notImplemented := by
  have innermost : frame.scopes.findSome? (·.declared? name arity) = some entry := by
    rw [← head?_declarations, entries, List.head?_cons]
  simp [resolve, innermost]

/-- What a call finds depends on the entries of its key only. -/
theorem resolve_congr {other : Frame}
    (same : other.declarations name arity = frame.declarations name arity) :
    other.resolve name arity = frame.resolve name arity := by
  rw [resolve, resolve, ← head?_declarations, ← head?_declarations, same]

theorem declares_of_succeeds (succeeds : (frame.declareCallable declared).1 = .ok ()) :
    frame.Declares declared (.ok ()) (frame.declareCallable declared).2 := by
  rw [← succeeds]
  exact frame.declareCallable_declares declared

/-- A declaration succeeds only beside entries that it agrees with. -/
theorem agrees_of_succeeds (succeeds : (frame.declareCallable declared).1 = .ok ()) :
    ∀ entry ∈ frame.declarations declared.name declared.arity,
      declared.conflict entry = none := by
  intro entry member
  obtain ⟨scope, scopeMember, found⟩ := mem_declarations.mp member
  have declares := declares_of_succeeds succeeds
  generalize (frame.declareCallable declared).2 = after at declares
  cases declares with
  | completed overrides agree known => exact agree scope scopeMember entry found
  | added plain agree => exact agree scope scopeMember entry found

/-- A declaration that overrides takes the place of the entries of its key. -/
theorem column_of_overriding (succeeds : (frame.declareCallable declared).1 = .ok ())
    (overrides : declared.overrides = true) :
    (frame.declareCallable declared).2.column declared.name declared.arity =
        (frame.column declared.name declared.arity).map (Option.map fun _ => ⟨declared, none⟩) ∧
      frame.declarations declared.name declared.arity ≠ [] := by
  have declares := declares_of_succeeds succeeds
  generalize (frame.declareCallable declared).2 = after at declares
  cases declares with
  | completed overrides agree known =>
      constructor
      · simp only [column, List.map_map]
        exact List.map_congr_left fun scope _ => scope.declared?_completedBy overrides
      · obtain ⟨scope, member, isSome⟩ := known
        obtain ⟨entry, found⟩ := Option.isSome_iff_exists.mp isSome
        exact List.ne_nil_of_mem (mem_declarations.mpr ⟨scope, member, found⟩)
  | added plain agree =>
      rw [overrides] at plain
      cases plain

/-- Another declaration stands in the innermost scope. -/
theorem column_of_plain (succeeds : (frame.declareCallable declared).1 = .ok ())
    (plain : declared.overrides = false) :
    (frame.declareCallable declared).2.column declared.name declared.arity =
      (frame.column declared.name declared.arity).modifyHead fun _ => some ⟨declared, none⟩ := by
  have declares := declares_of_succeeds succeeds
  generalize (frame.declareCallable declared).2 = after at declares
  cases declares with
  | completed overrides agree known =>
      rw [plain] at overrides
      cases overrides
  | added plain agree =>
      exact column_modifyInnermost _ _ fun scope =>
        Scope.declared?_insertEntry_of_answers declared.answers_self

/-- Beside what waits for a body, a declaration becomes the innermost entry of its key,
and the only one where it overrides. -/
theorem declarations_of_succeeds (opened : frame.scopes ≠ [])
    (succession : Entry.Succession (frame.declarations declared.name declared.arity))
    (succeeds : (frame.declareCallable declared).1 = .ok ()) :
    ∃ rest, (frame.declareCallable declared).2.declarations declared.name declared.arity =
        ⟨declared, none⟩ :: rest ∧
      rest <:+ frame.declarations declared.name declared.arity ∧
      (declared.overrides = true → rest = []) := by
  have waiting := succession.of_agrees (agrees_of_succeeds succeeds)
  cases overrides : declared.overrides with
  | true =>
      obtain ⟨replaced, known⟩ := column_of_overriding succeeds overrides
      obtain none | ⟨forward, single⟩ := waiting
      · exact absurd none known
      · refine ⟨[], ?_, List.nil_suffix, fun _ => rfl⟩
        rw [declarations_eq_reduceOption] at single
        rw [declarations_eq_reduceOption, replaced, List.reduceOption_map, single]
        rfl
  | false =>
      refine ⟨((frame.column declared.name declared.arity).tail).reduceOption, ?_, ?_, nofun⟩
      · rw [declarations_eq_reduceOption, column_of_plain succeeds overrides, column]
        cases scopes : frame.scopes with
        | nil => exact absurd scopes opened
        | cons inner outer => simp [List.reduceOption_cons_of_some]
      · rw [declarations_eq_reduceOption]
        exact (List.tail_suffix _).filterMap id

end Frame

/-! ## Frames that develop -/

namespace Frame

/-- The frames that develop from a frame by opening empty scopes, closing scopes while
more than `least` are open, and declarations that succeed. -/
inductive Develops (least : Nat) (first : Frame) : Frame → Prop where
  | refl : Develops least first first
  | opened {frame : Frame} (before : Develops least first frame) :
      Develops least first (frame.pushScope .empty)
  | closed {frame : Frame} (before : Develops least first frame)
      (more : least < frame.scopes.length) : Develops least first frame.popScope
  | declared {frame : Frame} (before : Develops least first frame) (declared : Callable)
      (succeeds : (frame.declareCallable declared).1 = .ok ()) :
      Develops least first (frame.declareCallable declared).2

/-- The entries of every key of a frame succeed one another, and a scope is open. -/
structure Consistent (frame : Frame) : Prop where
  opened : frame.scopes ≠ []
  succession (name : String) (arity : Nat) : Entry.Succession (frame.declarations name arity)

namespace Consistent

theorem start (name : String) (span : Span) (returns : ValueType) :
    (Frame.start name span returns).Consistent :=
  ⟨List.cons_ne_nil _ _, fun _ _ => .none⟩

variable {frame : Frame} (consistent : frame.Consistent)

include consistent

theorem pushScope : (frame.pushScope .empty).Consistent :=
  ⟨List.cons_ne_nil _ _, consistent.succession⟩

theorem popScope (more : 1 < frame.scopes.length) : frame.popScope.Consistent := by
  refine ⟨?_, fun name arity => ?_⟩
  · simp only [Frame.popScope, ne_eq, ← List.length_eq_zero_iff, List.length_tail]
    omega
  · apply (consistent.succession name arity).of_suffix
    exact (List.tail_suffix _).filterMap _

theorem declareCallable {declared : Callable}
    (succeeds : (frame.declareCallable declared).1 = .ok ()) :
    (frame.declareCallable declared).2.Consistent := by
  have succession := consistent.succession declared.name declared.arity
  have agree := agrees_of_succeeds succeeds
  obtain ⟨rest, entries, outer, -⟩ :=
    declarations_of_succeeds consistent.opened succession succeeds
  refine ⟨?_, fun name arity => ?_⟩
  · intro closed
    simp [declarations, closed] at entries
  · cases answers : declared.answers name arity with
    | false =>
        rw [declarations_declareCallable_of_not_answers answers]
        exact consistent.succession name arity
    | true =>
        obtain ⟨rfl, rfl⟩ := Callable.answers_iff.mp answers
        rw [entries]
        obtain rfl | ⟨entry, rfl⟩ :=
          (succession.of_suffix outer).of_agrees fun entry member =>
            agree entry (outer.subset member)
        · cases body : declared.hasBody with
          | false => exact .forward ⟨rfl, body⟩
          | true => exact .definition ⟨rfl, body⟩
        · have member := outer.subset List.mem_cons_self
          obtain ⟨scope, -, found⟩ := mem_declarations.mp member
          have key := Callable.answers_iff.mp (Callable.answers_of_declared? found)
          have conflict := agree entry member
          obtain ⟨forward, body⟩ := Callable.bodies_of_conflict_eq_none conflict
          exact .completed ⟨rfl, body⟩ (Entry.isForward_of_not_isImplemented forward)
            (Callable.sameSignature_of_conflict_eq_none key.2.symm conflict)

end Consistent

theorem Develops.consistent {first frame : Frame} (develops : Develops 1 first frame)
    (consistent : first.Consistent) : frame.Consistent := by
  induction develops with
  | refl => exact consistent
  | opened before ih => exact ih.pushScope
  | closed before more ih => exact ih.popScope more
  | declared before declared succeeds ih => exact ih.declareCallable succeeds

/-! ## Definitions that override -/

/-- A definition is the only entry of its key, in the scope at a height. -/
structure Settled (frame : Frame) (definition : Callable) (height : Nat) : Prop where
  body : definition.hasBody = true
  inPlace : Height.get? (frame.column definition.name definition.arity) height =
    some (some ⟨definition, none⟩)
  alone : frame.declarations definition.name definition.arity = [⟨definition, none⟩]

namespace Settled

variable {frame : Frame} {definition : Callable} {height : Nat}
  (settled : frame.Settled definition height)

include settled

theorem resolve : frame.resolve definition.name definition.arity =
    .ok (some ⟨definition, none⟩) := by
  rw [resolve_of_declarations settled.alone]
  simp [Entry.isImplemented, settled.body]

theorem pushScope : (frame.pushScope .empty).Settled definition height := by
  refine ⟨settled.body, ?_, settled.alone⟩
  have below := Height.lt_of_get?_eq_some settled.inPlace
  exact (Height.get?_cons_of_lt below).trans settled.inPlace

theorem popScope (more : height + 1 < frame.scopes.length) :
    frame.popScope.Settled definition height := by
  obtain ⟨body, inPlace, alone⟩ := settled
  obtain ⟨name, span, returns, scopes⟩ := frame
  cases scopes with
  | nil => simp at more
  | cons inner outer =>
      have below : height < outer.length := by
        simp only [List.length_cons] at more
        omega
      have outside : Height.get? (outer.map (·.declared? definition.name definition.arity))
          height = some (some ⟨definition, none⟩) := by
        rw [← inPlace]
        exact (Height.get?_cons_of_lt (by simpa using below)).symm
      -- the definition stands further out, so that the scope that is closed has no entry
      have member : (⟨definition, none⟩ : Entry) ∈
          outer.filterMap (·.declared? definition.name definition.arity) := by
        obtain ⟨scope, scopeMember, found⟩ :=
          List.mem_map.mp (Height.mem_of_get?_eq_some outside)
        exact List.mem_filterMap.mpr ⟨scope, scopeMember, found⟩
      refine ⟨body, outside, ?_⟩
      simp only [declarations, List.filterMap_cons] at alone
      split at alone
      · exact alone
      · rw [(List.cons.inj alone).2] at member
        cases member

theorem declareCallable {declared : Callable}
    (succeeds : (frame.declareCallable declared).1 = .ok ()) :
    (frame.declareCallable declared).2.Settled definition height := by
  cases answers : declared.answers definition.name definition.arity with
  | false =>
      have column := column_declareCallable_of_not_answers frame answers
      refine ⟨settled.body, column ▸ settled.inPlace, ?_⟩
      rw [declarations_declareCallable_of_not_answers answers]
      exact settled.alone
  | true =>
      -- nothing can be declared beside a definition
      obtain ⟨name, arity⟩ := Callable.answers_iff.mp answers
      have agree := agrees_of_succeeds succeeds
      rw [name, arity, settled.alone] at agree
      obtain ⟨forward, -⟩ :=
        Callable.bodies_of_conflict_eq_none (agree _ List.mem_cons_self)
      simp [Entry.isImplemented, settled.body] at forward

end Settled

theorem Develops.settled {first frame : Frame} {definition : Callable} {height : Nat}
    (develops : Develops (height + 1) first frame) (settled : first.Settled definition height) :
    frame.Settled definition height := by
  induction develops with
  | refl => exact settled
  | opened before ih => exact ih.pushScope
  | closed before more ih => exact ih.popScope more
  | declared before declared succeeds ih => exact ih.declareCallable succeeds

/-- A definition that overrides settles in the scope of the declaration that it
completes. -/
theorem Consistent.settled_of_overriding {frame : Frame} (consistent : frame.Consistent)
    {declared : Callable} (succeeds : (frame.declareCallable declared).1 = .ok ())
    (overrides : declared.overrides = true) :
    ∃ height scope forward, frame.scope? height = some scope ∧
      scope.declared? declared.name declared.arity = some forward ∧ forward.IsForward ∧
      (frame.declareCallable declared).2.Settled declared height := by
  obtain ⟨replaced, known⟩ := column_of_overriding succeeds overrides
  obtain ⟨forward, member⟩ := List.exists_mem_of_ne_nil _ known
  obtain ⟨scope, scopeMember, found⟩ := mem_declarations.mp member
  obtain ⟨height, atHeight⟩ := Height.exists_get?_of_mem scopeMember
  obtain ⟨waits, body⟩ :=
    Callable.bodies_of_conflict_eq_none (agrees_of_succeeds succeeds forward member)
  obtain ⟨rest, entries, -, alone⟩ := declarations_of_succeeds consistent.opened
    (consistent.succession declared.name declared.arity) succeeds
  rw [alone overrides] at entries
  refine ⟨height, scope, forward, atHeight, found, Entry.isForward_of_not_isImplemented waits,
    body, ?_, entries⟩
  rw [replaced, column, Height.get?_map, Height.get?_map, atHeight]
  simp [found]

end Frame

/-- The table of functions and patterns, in a frame that developed from an empty one by
declarations that succeeded.

The entries of every key succeed one another and have the same signature.  A declaration
that succeeds is what a call under its key finds; it cannot be called yet if it has no
body, and calls under other keys find what they found before.  If it overrides, it is
found as long as the scope of the declaration that it completes is open. -/
theorem callable_table_is_consistent (name : String) (span : Span) (returns : ValueType)
    (frame : Frame) (develops : Frame.Develops 1 (.start name span returns) frame) :
    (∀ key arity,
      Entry.Succession (frame.declarations key arity) ∧
      ∀ first ∈ frame.declarations key arity, ∀ second ∈ frame.declarations key arity,
        first.callable.SameSignature second.callable) ∧
    ∀ declared, (frame.declareCallable declared).1 = .ok () →
      let after := (frame.declareCallable declared).2
      (declared.hasBody = true →
        after.resolve declared.name declared.arity = .ok (some ⟨declared, none⟩)) ∧
      (declared.hasBody = false →
        after.resolve declared.name declared.arity = .error declared.notImplemented) ∧
      (∀ key arity, declared.answers key arity = false →
        after.resolve key arity = frame.resolve key arity) ∧
      (declared.overrides = true → ∃ height scope forward,
        frame.scope? height = some scope ∧
        scope.declared? declared.name declared.arity = some forward ∧ forward.IsForward ∧
        ∀ later, Frame.Develops (height + 1) after later →
          later.resolve declared.name declared.arity = .ok (some ⟨declared, none⟩)) := by
  have consistent := develops.consistent (.start name span returns)
  refine ⟨fun key arity => ?_, fun declared succeeds => ?_⟩
  · have succession := consistent.succession key arity
    exact ⟨succession, succession.sameSignature⟩
  · intro after
    obtain ⟨rest, entries, -, -⟩ := Frame.declarations_of_succeeds consistent.opened
      (consistent.succession declared.name declared.arity) succeeds
    have found := Frame.resolve_of_declarations entries
    refine ⟨fun body => ?_, fun body => ?_, fun key arity otherwise => ?_, fun overrides => ?_⟩
    · exact found.trans (by simp [Entry.isImplemented, body])
    · exact found.trans (by simp [Entry.isImplemented, body])
    · exact Frame.resolve_congr (Frame.declarations_declareCallable_of_not_answers otherwise)
    · obtain ⟨height, scope, forward, atHeight, inScope, isForward, settled⟩ :=
        consistent.settled_of_overriding succeeds overrides
      exact ⟨height, scope, forward, atHeight, inScope, isForward,
        fun later developed => (developed.settled settled).resolve⟩

/-- A function is declared, and completed from a block by a definition that overrides.
The definition can be called in the block and after it. -/
theorem overriding_definition_outlives_block :
    let place : Span := .firstCharacter
    let forward : Callable := .function ⟨place, "F", false, [], .number⟩ (.empty place)
    let overriding : Callable := .function ⟨place, "F", true, [], .number⟩ (.compound place [])
    let outside : Frame :=
      ((Frame.start Machine.mainName place .nothing).declareCallable forward).2
    let frame : Frame := outside.pushScope .empty
    (Frame.start Machine.mainName place .nothing).Develops 1 frame ∧
    (frame.declareCallable overriding).1 = .ok () ∧
    frame.declarations "F" 0 = [⟨forward, none⟩] ∧
    (frame.declareCallable overriding).2.resolve "F" 0 = .ok (some ⟨overriding, none⟩) ∧
    (frame.declareCallable overriding).2.popScope.resolve "F" 0 =
      .ok (some ⟨overriding, none⟩) := by
  intro place forward overriding outside frame
  have develops : (Frame.start Machine.mainName place .nothing).Develops 1 frame :=
    .opened (.declared .refl forward rfl)
  have succeeds : (frame.declareCallable overriding).1 = .ok () := rfl
  obtain ⟨-, table⟩ := callable_table_is_consistent _ _ _ frame develops
  obtain ⟨found, -, -, stays⟩ := table overriding succeeds
  obtain ⟨height, scope, completed, atHeight, inScope, -, later⟩ := stays rfl
  have outermost : height = 0 := by
    have below := Height.lt_of_get?_eq_some atHeight
    have two : frame.scopes.length = 2 := rfl
    obtain isOuter | isInner : height = 0 ∨ height = 1 := by omega
    · exact isOuter
    · subst isInner
      cases atHeight
      cases inScope
  subst outermost
  exact ⟨develops, succeeds, rfl, found rfl, later _ (.closed .refl (by decide))⟩

end Plainspoken
