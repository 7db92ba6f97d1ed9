import Plainspoken.Proofs.Extension

/-!
# Declaring functions and patterns

A declaration is checked against the entries of its key, the outermost scope first,
and a declaration that overrides takes the place of each entry that it agrees with
before the next one is checked.  `Frame.Declares` says once what can come of it; the
entries of other keys stay as they are in any case.

A declaration that fails leaves the frame as it was, with one exception: where it
overrides, an entry further out than the one it conflicts with has been replaced.
-/

namespace Plainspoken

/-! ## Keys -/

namespace Callable

theorem answers_self (declared : Callable) :
    declared.answers declared.name declared.arity = true := by
  simp [answers]

theorem answers_iff {declared : Callable} {name : String} {arity : Nat} :
    declared.answers name arity = true ↔ declared.name = name ∧ declared.arity = arity := by
  simp [answers]

theorem answers_of_declared? {scope : Scope} {name : String} {arity : Nat} {entry : Entry}
    (found : scope.declared? name arity = some entry) :
    entry.callable.answers name arity = true := by
  unfold Scope.declared? at found
  have answers := List.find?_some found
  exact answers

end Callable

/-! ## Checking a declaration -/

namespace Scope

def entryFor? (scope : Scope) (declared : Callable) : Option Entry :=
  scope.declared? declared.name declared.arity

/-- A declaration can stand beside what a scope has under its key. -/
def Agrees (scope : Scope) (declared : Callable) : Prop :=
  ∀ entry, scope.entryFor? declared = some entry → declared.conflict entry = none

/-- A declaration cannot stand beside what a scope has under its key. -/
def Conflicts (scope : Scope) (declared : Callable) (cause : RuntimeCause) : Prop :=
  ∃ entry, scope.entryFor? declared = some entry ∧ declared.conflict entry = some cause

/-- What becomes of a scope that a declaration agrees with: if it overrides, it takes
the place of the entry of its key. -/
def completedBy (scope : Scope) (declared : Callable) : Scope :=
  if declared.overrides && (scope.entryFor? declared).isSome then
    scope.insertEntry ⟨declared, none⟩
  else scope

theorem agrees_or_conflicts (scope : Scope) (declared : Callable) :
    scope.Agrees declared ∨ ∃ cause, scope.Conflicts declared cause := by
  cases found : scope.entryFor? declared with
  | none =>
      left
      intro entry isEntry
      rw [found] at isEntry
      cases isEntry
  | some entry =>
      cases conflict : declared.conflict entry with
      | none =>
          left
          intro other isOther
          rw [found] at isOther
          cases isOther
          exact conflict
      | some cause => exact .inr ⟨cause, entry, found, conflict⟩

private theorem completedBy_of_not_overrides (scope : Scope) {declared : Callable}
    (plain : declared.overrides = false) : scope.completedBy declared = scope := by
  simp [completedBy, plain]

theorem completedBy_of_entryFor?_eq_none {scope : Scope} {declared : Callable}
    (unknown : scope.entryFor? declared = none) : scope.completedBy declared = scope := by
  simp [completedBy, unknown]

theorem completedBy_of_overrides {scope : Scope} {declared : Callable} {entry : Entry}
    (overrides : declared.overrides = true) (found : scope.entryFor? declared = some entry) :
    scope.completedBy declared = scope.insertEntry ⟨declared, none⟩ := by
  simp [completedBy, overrides, found]

private theorem declared?_completedBy_of_not_answers (scope : Scope) {declared : Callable}
    {name : String} {arity : Nat} (otherwise : declared.answers name arity = false) :
    (scope.completedBy declared).declared? name arity = scope.declared? name arity := by
  unfold completedBy
  split
  · exact declared?_insertEntry_of_not_answers otherwise
  · rfl

end Scope

namespace Frame

/-- A declaration that no scope conflicts with passes all of them. -/
theorem completeIn_of_agrees {declared : Callable} {scopes : List Scope}
    (agree : ∀ scope ∈ scopes, scope.Agrees declared) :
    completeIn declared scopes = ⟨scopes.map (·.completedBy declared),
      scopes.any fun scope => (scope.entryFor? declared).isSome, none⟩ := by
  induction scopes with
  | nil => rfl
  | cons scope outer ih =>
      obtain ⟨innerAgrees, outerAgree⟩ := List.forall_mem_cons.mp agree
      rw [completeIn, ih outerAgree]
      cases found : scope.entryFor? declared with
      | none =>
          have kept := Scope.completedBy_of_entryFor?_eq_none found
          rw [Scope.entryFor?] at found
          simp [found, kept, Scope.entryFor?]
      | some entry =>
          have agreed := innerAgrees entry found
          have replaced : scope.completedBy declared =
              if declared.overrides then scope.insertEntry ⟨declared, none⟩ else scope := by
            simp [Scope.completedBy, found]
          rw [Scope.entryFor?] at found
          simp [found, agreed, replaced, Scope.entryFor?]

/-- The outermost conflict ends the check: the scopes outside of it have been passed,
and nothing happens to those inside of it. -/
theorem completeIn_of_conflict {declared : Callable} {inner outer : List Scope} {scope : Scope}
    {cause : RuntimeCause} (agree : ∀ scope ∈ outer, scope.Agrees declared)
    (conflicts : scope.Conflicts declared cause) :
    (completeIn declared (inner ++ scope :: outer)).scopes =
        inner ++ scope :: outer.map (·.completedBy declared) ∧
      (completeIn declared (inner ++ scope :: outer)).conflict = some cause := by
  induction inner with
  | nil =>
      obtain ⟨entry, found, conflict⟩ := conflicts
      rw [Scope.entryFor?] at found
      simp [completeIn, completeIn_of_agrees agree, found, conflict]
  | cons first inner ih =>
      obtain ⟨scopes, conflict⟩ := ih
      simp [completeIn, scopes, conflict]

/-- Either all scopes agree with a declaration, or there is an outermost one that
conflicts with it. -/
theorem agree_or_conflict (declared : Callable) (scopes : List Scope) :
    (∀ scope ∈ scopes, scope.Agrees declared) ∨
    ∃ inner scope outer cause, scopes = inner ++ scope :: outer ∧
      scope.Conflicts declared cause ∧ ∀ scope ∈ outer, scope.Agrees declared := by
  induction scopes with
  | nil => exact .inl (List.forall_mem_nil _)
  | cons scope outer ih =>
      rcases ih with outerAgree | ⟨inner, other, rest, cause, rfl, conflicts, agree⟩
      · rcases scope.agrees_or_conflicts declared with agrees | ⟨cause, conflicts⟩
        · exact .inl (List.forall_mem_cons.mpr ⟨agrees, outerAgree⟩)
        · exact .inr ⟨[], scope, outer, cause, rfl, conflicts, outerAgree⟩
      · exact .inr ⟨scope :: inner, other, rest, cause, rfl, conflicts, agree⟩

/-- What can come of a declaration. -/
inductive Declares (frame : Frame) (declared : Callable) :
    Except RuntimeCause Unit → Frame → Prop where
  /-- It conflicts with an entry, and the scopes further out have been passed. -/
  | conflict {inner outer : List Scope} {scope : Scope} {cause : RuntimeCause}
      (scopes : frame.scopes = inner ++ scope :: outer)
      (conflicts : scope.Conflicts declared cause)
      (agree : ∀ scope ∈ outer, scope.Agrees declared) :
      Declares frame declared (.error cause)
        { frame with scopes := inner ++ scope :: outer.map (·.completedBy declared) }
  /-- It overrides, and there is nothing to complete. -/
  | undeclared (overrides : declared.overrides = true)
      (unknown : ∀ scope ∈ frame.scopes, scope.entryFor? declared = none) :
      Declares frame declared (.error declared.overrideFailure) frame
  /-- It overrides, and completes what is there. -/
  | completed (overrides : declared.overrides = true)
      (agree : ∀ scope ∈ frame.scopes, scope.Agrees declared)
      (known : ∃ scope ∈ frame.scopes, (scope.entryFor? declared).isSome = true) :
      Declares frame declared (.ok ())
        { frame with scopes := frame.scopes.map (·.completedBy declared) }
  /-- It is added to the innermost scope. -/
  | added (plain : declared.overrides = false)
      (agree : ∀ scope ∈ frame.scopes, scope.Agrees declared) :
      Declares frame declared (.ok ()) (frame.modifyInnermost (·.insertEntry ⟨declared, none⟩))

theorem declareCallable_declares (frame : Frame) (declared : Callable) :
    frame.Declares declared (frame.declareCallable declared).1
      (frame.declareCallable declared).2 := by
  rcases agree_or_conflict declared frame.scopes with
    agree | ⟨inner, scope, outer, cause, split, conflicts, agree⟩
  · have checked := completeIn_of_agrees agree
    cases overrides : declared.overrides with
    | false =>
        have kept : frame.scopes.map (·.completedBy declared) = frame.scopes := by
          simp [Scope.completedBy_of_not_overrides _ overrides]
        rw [kept] at checked
        simpa [declareCallable, checked, overrides] using Declares.added overrides agree
    | true =>
        cases known : frame.scopes.any fun scope => (scope.entryFor? declared).isSome with
        | false =>
            have unknown : ∀ scope ∈ frame.scopes, scope.entryFor? declared = none := by
              simpa using known
            have kept : frame.scopes.map (·.completedBy declared) = frame.scopes := by
              rw [List.map_congr_left fun scope member =>
                Scope.completedBy_of_entryFor?_eq_none (unknown scope member), List.map_id']
            rw [kept, known] at checked
            simpa [declareCallable, checked, overrides] using Declares.undeclared overrides unknown
        | true =>
            rw [known] at checked
            have someKnown := List.any_eq_true.mp known
            simpa [declareCallable, checked, overrides] using
              Declares.completed overrides agree someKnown
  · obtain ⟨scopes, conflict⟩ := completeIn_of_conflict agree conflicts
    rw [← split] at scopes conflict
    simpa [declareCallable, scopes, conflict] using Declares.conflict split conflicts agree

theorem length_scopes_declareCallable (frame : Frame) (declared : Callable) :
    (frame.declareCallable declared).2.scopes.length = frame.scopes.length := by
  have declares := frame.declareCallable_declares declared
  generalize (frame.declareCallable declared).1 = result at declares
  generalize (frame.declareCallable declared).2 = after at declares ⊢
  cases declares with
  | conflict scopes conflicts agree => simp [scopes]
  | undeclared overrides unknown => rfl
  | completed overrides agree known => exact List.length_map _
  | added plain agree => exact List.length_modifyHead

/-! ## What the scopes have under a key -/

/-- What the scopes have under a key, the innermost first. -/
def column (frame : Frame) (name : String) (arity : Nat) : List (Option Entry) :=
  frame.scopes.map (·.declared? name arity)

theorem column_modifyInnermost {frame : Frame} {name : String} {arity : Nat}
    (change : Scope → Scope) (other : Option Entry → Option Entry)
    (changed : ∀ scope, (change scope).declared? name arity =
      other (scope.declared? name arity)) :
    (frame.modifyInnermost change).column name arity =
      (frame.column name arity).modifyHead other := by
  unfold column modifyInnermost
  cases frame.scopes with
  | nil => rfl
  | cons inner outer => simp [changed]

/-- What variables hold has nothing to do with entries. -/
theorem Alike.column {before after : Frame} (alike : before.Alike after) (name : String)
    (arity : Nat) : after.column name arity = before.column name arity := by
  have scopes := alike.scopes
  unfold Frame.column
  generalize before.scopes = firsts at scopes ⊢
  generalize after.scopes = seconds at scopes ⊢
  induction scopes with
  | nil => rfl
  | cons scopeAlike _ ih =>
      rw [List.map_cons, List.map_cons, ih, Scope.declared?, scopeAlike.entries, Scope.declared?]

/-- A declaration leaves the entries of other keys as they are. -/
theorem column_declareCallable_of_not_answers (frame : Frame) {declared : Callable}
    {name : String} {arity : Nat} (otherwise : declared.answers name arity = false) :
    (frame.declareCallable declared).2.column name arity = frame.column name arity := by
  have completes (scopes : List Scope) :
      (scopes.map (·.completedBy declared)).map (·.declared? name arity) =
        scopes.map (·.declared? name arity) := by
    rw [List.map_map]
    exact List.map_congr_left fun scope _ => scope.declared?_completedBy_of_not_answers otherwise
  have declares := frame.declareCallable_declares declared
  generalize (frame.declareCallable declared).1 = result at declares
  generalize (frame.declareCallable declared).2 = after at declares ⊢
  cases declares with
  | conflict scopes conflicts agree => simp [column, scopes, completes]
  | undeclared overrides unknown => rfl
  | completed overrides agree known => exact completes frame.scopes
  | added plain agree =>
      rw [column_modifyInnermost _ id fun scope =>
        Scope.declared?_insertEntry_of_not_answers otherwise, List.modifyHead_id]
      rfl

/-! ## Declarations that fail -/

/-- A declaration overtakes its conflict: it overrides, `scope` is the outermost one
that it conflicts with, and it completes an entry further out. -/
structure Overtaken (frame : Frame) (declared : Callable) (inner : List Scope) (scope : Scope)
    (outer : List Scope) : Prop where
  scopes : frame.scopes = inner ++ scope :: outer
  overrides : declared.overrides = true
  conflicts : ∃ cause, scope.Conflicts declared cause
  agree : ∀ scope ∈ outer, scope.Agrees declared
  known : ∃ scope ∈ outer, (scope.entryFor? declared).isSome = true

end Frame

/-- An entry that is completed is replaced by one that can be called. -/
theorem Scope.completedBy_ne {scope : Scope} {declared : Callable}
    (overrides : declared.overrides = true) (agrees : scope.Agrees declared)
    (known : (scope.entryFor? declared).isSome = true) : scope.completedBy declared ≠ scope := by
  intro same
  obtain ⟨entry, found⟩ := Option.isSome_iff_exists.mp known
  obtain ⟨forward, body⟩ := Callable.bodies_of_conflict_eq_none (agrees entry found)
  have inPlace : scope.entryFor? declared = some ⟨declared, none⟩ := by
    rw [← same, Scope.completedBy_of_overrides overrides found]
    exact Scope.declared?_insertEntry_of_answers declared.answers_self
  rw [inPlace] at found
  cases found
  simp [Entry.isImplemented, body] at forward

namespace Frame

theorem Overtaken.changed {frame : Frame} {declared : Callable} {inner outer : List Scope}
    {scope : Scope} (overtaken : frame.Overtaken declared inner scope outer) :
    outer.map (·.completedBy declared) ≠ outer := by
  intro same
  obtain ⟨forward, member, known⟩ := overtaken.known
  have kept : ∀ scope ∈ outer, scope.completedBy declared = scope := by
    rw [← List.map_inj_left, List.map_id']
    exact same
  exact Scope.completedBy_ne overtaken.overrides (overtaken.agree forward member) known
    (kept forward member)

/-- The frame that is left by a declaration that overtakes its conflict. -/
theorem Overtaken.declareCallable {frame : Frame} {declared : Callable}
    {inner outer : List Scope} {scope : Scope}
    (overtaken : frame.Overtaken declared inner scope outer) :
    (frame.declareCallable declared).2 =
      { frame with scopes := inner ++ scope :: outer.map (·.completedBy declared) } := by
  obtain ⟨cause, conflicts⟩ := overtaken.conflicts
  obtain ⟨scopes, conflict⟩ := completeIn_of_conflict overtaken.agree conflicts
  rw [← overtaken.scopes] at scopes conflict
  simp [Frame.declareCallable, scopes, conflict]

/-- A conflict that is not overtaken leaves the scopes outside of it as they were. -/
theorem map_completedBy_of_not_overtaken {frame : Frame} {declared : Callable}
    {inner outer : List Scope} {scope : Scope} {cause : RuntimeCause}
    (scopes : frame.scopes = inner ++ scope :: outer)
    (conflicts : scope.Conflicts declared cause)
    (agree : ∀ scope ∈ outer, scope.Agrees declared)
    (notOvertaken : ¬ frame.Overtaken declared inner scope outer) :
    outer.map (·.completedBy declared) = outer := by
  cases overrides : declared.overrides with
  | false => simp [Scope.completedBy_of_not_overrides _ overrides]
  | true =>
      have unknown : ∀ scope ∈ outer, scope.completedBy declared = scope := by
        intro other member
        cases found : other.entryFor? declared with
        | none => exact Scope.completedBy_of_entryFor?_eq_none found
        | some entry =>
            have known : (other.entryFor? declared).isSome = true := by rw [found]; rfl
            exact absurd ⟨scopes, overrides, ⟨cause, conflicts⟩, agree, other, member, known⟩
              notOvertaken
      rw [List.map_congr_left unknown, List.map_id']

end Frame

/-- A declaration that fails leaves the frame as it was, if and only if it does not
overtake the entry that it conflicts with.  If it does, the entries of its key further
out have been replaced, and everything else is as it was. -/
theorem failed_declaration_keeps_frame_unless_overtaking (frame : Frame) (declared : Callable)
    (cause : RuntimeCause) (failed : (frame.declareCallable declared).1 = .error cause) :
    ((frame.declareCallable declared).2 = frame ↔
      ∀ inner scope outer, ¬ frame.Overtaken declared inner scope outer) ∧
    (∀ inner scope outer, frame.Overtaken declared inner scope outer →
      (frame.declareCallable declared).2 =
        { frame with scopes := inner ++ scope :: outer.map (·.completedBy declared) }) := by
  refine ⟨⟨?_, ?_⟩, fun inner scope outer overtaken => overtaken.declareCallable⟩
  · intro kept inner scope outer overtaken
    have left := overtaken.declareCallable
    rw [kept] at left
    have scopes := congrArg Frame.scopes left
    rw [overtaken.scopes] at scopes
    simp only [List.append_cancel_left_eq, List.cons.injEq, true_and] at scopes
    exact overtaken.changed scopes.symm
  · intro notOvertaken
    have declares := frame.declareCallable_declares declared
    rw [failed] at declares
    generalize (frame.declareCallable declared).2 = after at declares
    cases declares with
    | conflict scopes conflicts agree =>
        rw [Frame.map_completedBy_of_not_overtaken scopes conflicts agree
          (notOvertaken _ _ _), ← scopes]
    | undeclared overrides unknown => rfl

/-- A function is declared, and defined in an inner scope.  Overriding it there fails,
since it has a definition, but has replaced the declaration: once the inner scope is
closed, calls find the definition that was refused. -/
theorem failed_override_replaces_declaration :
    let place : Span := .firstCharacter
    let forward : Callable := .function ⟨place, "F", false, [], .number⟩ (.empty place)
    let definition : Callable := .function ⟨place, "F", false, [], .number⟩ (.compound place [])
    let overriding : Callable := .function ⟨place, "F", true, [], .number⟩ (.compound place [])
    let outside : Frame :=
      ((Frame.start Machine.mainName place .nothing).declareCallable forward).2
    let frame : Frame := ((outside.pushScope .empty).declareCallable definition).2
    (frame.declareCallable overriding).1 = .error (.functionRedefinition "F" place) ∧
    frame.popScope.resolve "F" 0 = .error (.functionNotImplemented "F" place) ∧
    (frame.declareCallable overriding).2.popScope.resolve "F" 0 =
      .ok (some ⟨overriding, none⟩) ∧
    (frame.declareCallable overriding).2 ≠ frame := by
  intro place forward definition overriding outside frame
  have before : frame.popScope.resolve "F" 0 = .error (.functionNotImplemented "F" place) := rfl
  have after : (frame.declareCallable overriding).2.popScope.resolve "F" 0 =
      .ok (some ⟨overriding, none⟩) := rfl
  refine ⟨rfl, before, after, ?_⟩
  intro same
  rw [same, before] at after
  cases after

/-- The same declarations: the override overtakes the definition.  In the scope of the
definition alone, it fails and leaves the frame as it was. -/
theorem failed_override_overtakes_definition :
    let place : Span := .firstCharacter
    let forward : Callable := .function ⟨place, "F", false, [], .number⟩ (.empty place)
    let definition : Callable := .function ⟨place, "F", false, [], .number⟩ (.compound place [])
    let overriding : Callable := .function ⟨place, "F", true, [], .number⟩ (.compound place [])
    let outer : Scope := Scope.empty.insertEntry ⟨forward, none⟩
    let scope : Scope := Scope.empty.insertEntry ⟨definition, none⟩
    let frame : Frame := ⟨Machine.mainName, place, .nothing, [scope, outer]⟩
    let alone : Frame := ⟨Machine.mainName, place, .nothing, [scope]⟩
    (frame.declareCallable overriding).1 = .error (.functionRedefinition "F" place) ∧
    frame.Overtaken overriding [] scope [outer] ∧
    (frame.declareCallable overriding).2 =
      { frame with scopes := [scope, outer.completedBy overriding] } ∧
    (frame.declareCallable overriding).2 ≠ frame ∧
    (alone.declareCallable overriding).1 = .error (.functionRedefinition "F" place) ∧
    (alone.declareCallable overriding).2 = alone := by
  intro place forward definition overriding outer scope frame alone
  have failed : (frame.declareCallable overriding).1 =
      .error (.functionRedefinition "F" place) := rfl
  have failedAlone : (alone.declareCallable overriding).1 =
      .error (.functionRedefinition "F" place) := rfl
  have overtaken : frame.Overtaken overriding [] scope [outer] := by
    refine ⟨rfl, rfl, ⟨_, ⟨definition, none⟩, rfl, rfl⟩, ?_, outer, List.mem_singleton_self _, rfl⟩
    intro passed isOuter entry found
    cases List.mem_singleton.mp isOuter
    cases found
    rfl
  obtain ⟨keptIff, left⟩ :=
    failed_declaration_keeps_frame_unless_overtaking frame overriding _ failed
  obtain ⟨keptAloneIff, -⟩ :=
    failed_declaration_keeps_frame_unless_overtaking alone overriding _ failedAlone
  refine ⟨failed, overtaken, left _ _ _ overtaken, ?_, failedAlone, ?_⟩
  · intro kept
    exact keptIff.mp kept _ _ _ overtaken
  · apply keptAloneIff.mpr
    rintro inner other rest ⟨scopes, -, -, -, known⟩
    obtain ⟨further, member, -⟩ := known
    have short := congrArg List.length scopes
    have long := List.length_pos_of_mem member
    simp [alone] at short
    omega

end Plainspoken
