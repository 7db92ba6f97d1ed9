import Plainspoken.Proofs.RoutineImmunity
import Plainspoken.Proofs.Simulation

/-!
# Programs without loops terminate

Functions and patterns may call each other without end, so that no measure of the tree
bounds a run.  What bounds it is the depth: every node counts one level, and a node that
reaches the limit fails.  At a given level only as many levels are left as the limit
allows, and at each of them a node has finitely many parts, if it is no loop.

The bodies that a call leads to are those that have been declared, and what a statement
declares is a part of it.  So they have no loops either, on every machine that the run of
a program without loops passes through.
-/

namespace Plainspoken

open Stepping Evaluation

/-! ## Statements without loops -/

namespace Statement

mutual

/-- Whether there is a loop in a statement or in a body that it declares. -/
def hasLoop : Statement → Bool
  | .loop _ _ _ => true
  | .function _ body | .pattern _ body | .matching _ _ body => body.hasLoop
  | .compound _ children => hasLoopAmong children
  | .conditional _ _ positive negative => positive.hasLoop || hasLoopElse negative
  | .expression _ | .variable _ _ | .skip _ | .stop _ | .giveBack _ _ | .empty _ => false

def hasLoopElse : Option Statement → Bool
  | none => false
  | some statement => statement.hasLoop

def hasLoopAmong : List Statement → Bool
  | [] => false
  | first :: others => first.hasLoop || hasLoopAmong others

end

private theorem hasLoopAmong_eq (statements : List Statement) :
    hasLoopAmong statements = statements.any hasLoop := by
  induction statements with
  | nil => rw [hasLoopAmong, List.any_nil]
  | cons first others ih => rw [hasLoopAmong, List.any_cons, ih]

private theorem hasLoopElse_eq (negative : Option Statement) :
    hasLoopElse negative = negative.toList.any hasLoop := by
  cases negative with
  | none => rw [hasLoopElse, Option.toList_none, List.any_nil]
  | some negative => simp [hasLoopElse]

/-- A statement that is no loop has one only in its parts. -/
theorem hasLoop_eq {statement : Statement}
    (isNoLoop : ∀ span test body, statement ≠ .loop span test body) :
    statement.hasLoop = statement.parts.any hasLoop := by
  cases statement with
  | loop span test body => exact absurd rfl (isNoLoop span test body)
  | _ => simp [hasLoop, parts, hasLoopAmong_eq, hasLoopElse_eq]

theorem hasLoop_part {statement part : Statement} (loopFree : statement.hasLoop = false)
    (isPart : part ∈ statement.parts) : part.hasLoop = false := by
  have isNoLoop (span : Span) (test : Expression) (body : Statement) :
      statement ≠ .loop span test body := by
    rintro rfl
    rw [hasLoop] at loopFree
    cases loopFree
  rw [hasLoop_eq isNoLoop, List.any_eq_false] at loopFree
  simpa using loopFree part isPart

end Statement

/-! ## Machines without loops -/

/-- An entry that a call refers to is declared in a scope of the frame. -/
theorem Frame.exists_declared_of_resolve {frame : Frame} {name : String} {arity : Nat}
    {entry : Entry} (resolves : frame.resolve name arity = .ok (some entry)) :
    ∃ scope ∈ frame.scopes, scope.declared? name arity = some entry := by
  unfold Frame.resolve at resolves
  split at resolves
  · cases resolves
  · next found isFound =>
    obtain ⟨scope, member, declared⟩ := List.exists_of_findSome?_eq_some isFound
    split at resolves
    · cases resolves
      exact ⟨scope, member, declared⟩
    · cases resolves

theorem Machine.exists_declared_of_resolve {machine : Machine} {name : String} {arity : Nat}
    {entry : Entry} (resolves : Evaluation.resolve machine name arity = .ok (some entry)) :
    ∃ frame ∈ machine.stack.frames, ∃ scope ∈ frame.scopes,
      scope.declared? name arity = some entry := by
  unfold Evaluation.resolve at resolves
  cases outside : machine.stack.globalFrame.resolve name arity with
  | error cause =>
      rw [outside] at resolves
      cases resolves
  | ok found =>
      rw [outside] at resolves
      cases found with
      | none =>
          exact ⟨machine.current, List.mem_cons_self, Frame.exists_declared_of_resolve resolves⟩
      | some global =>
          cases resolves
          exact ⟨_, machine.stack.globalFrame_mem_frames, Frame.exists_declared_of_resolve outside⟩

theorem Machine.exists_mem_of_resolve {machine : Machine} {name : String} {arity : Nat}
    {entry : Entry} (resolves : Evaluation.resolve machine name arity = .ok (some entry)) :
    ∃ frame ∈ machine.stack.frames, ∃ scope ∈ frame.scopes, entry ∈ scope.entries := by
  obtain ⟨frame, frameMember, scope, member, declared⟩ := exists_declared_of_resolve resolves
  exact ⟨frame, frameMember, scope, member, List.mem_of_find?_eq_some declared⟩

/-- No body that is declared in a scope has a loop. -/
def Scope.LoopFree (scope : Scope) : Prop :=
  ∀ entry ∈ scope.entries, entry.callable.body.hasLoop = false

private theorem Scope.LoopFree.of_entries_eq_nil {scope : Scope} (bare : scope.entries = []) :
    scope.LoopFree := by
  unfold LoopFree
  rw [bare]
  exact List.forall_mem_nil _

theorem Scope.LoopFree.insertEntry {scope : Scope} (loopFree : scope.LoopFree) {entry : Entry}
    (entryLoopFree : entry.callable.body.hasLoop = false) :
    (scope.insertEntry entry).LoopFree := by
  intro other member
  rcases List.mem_cons.mp member with rfl | isEarlier
  · exact entryLoopFree
  · exact loopFree other (List.mem_of_mem_filter isEarlier)

/-- No body that is declared has a loop. -/
def Machine.LoopFree (machine : Machine) : Prop :=
  machine.Everywhere Scope.LoopFree

namespace Machine.LoopFree

theorem initial : Machine.initial.LoopFree := by
  have library : Routine.library.LoopFree := by
    intro entry member
    obtain ⟨routine, -, rfl⟩ := List.mem_map.mp member
    cases routine <;> rfl
  intro frame member
  rw [List.mem_singleton.mp member]
  exact List.forall_mem_cons.mpr
    ⟨library, List.forall_mem_singleton.mpr (Scope.LoopFree.of_entries_eq_nil rfl)⟩

variable {machine : Machine} (loopFree : machine.LoopFree)

include loopFree

theorem change {change : Machine → Machine} (changes : Machine.Change change) :
    (change machine).LoopFree := by
  cases changes with
  | marked span => exact loopFree.modifyCurrent loopFree.current
  | flagsSet flags => exact loopFree.modifyInnermost fun _ holds => holds
  | flagsUnset flags => exact loopFree.modifyInnermost fun _ holds => holds
  | flagsRestored wasSet flags =>
      cases wasSet with
      | true => exact loopFree
      | false => exact loopFree.modifyInnermost fun _ holds => holds
  | scopeOpened bare => exact loopFree.pushScope (.of_entries_eq_nil bare)
  | scopeClosed => exact loopFree.popScope
  | frameOpened bare =>
      exact loopFree.pushFrame fun scope member => .of_entries_eq_nil (bare scope member)
  | frameClosed => exact loopFree.popFrame
  | stored site value =>
      apply loopFree.store
      intro frame scope frameFound scopeFound
      rw [CallStack.frame?_eq] at frameFound
      exact loopFree frame (Height.mem_of_get?_eq_some frameFound) scope
        (Height.mem_of_get?_eq_some scopeFound)
  | remembered value => exact loopFree
  | linePrinted text => exact loopFree
  | returnMissed span name => exact loopFree

theorem declareVariable {binding : Variable} {frame : Frame}
    (declares : machine.current.declareVariable binding = .ok frame) :
    (machine.modifyCurrent fun _ => frame).LoopFree := by
  apply loopFree.modifyCurrent
  unfold Frame.declareVariable at declares
  split at declares
  · cases declares
  · cases declares
    exact loopFree.current.modifyInnermost fun _ holds => holds

theorem declareCallable {declared : Callable} (bodyLoopFree : declared.body.hasLoop = false) :
    (machine.modifyCurrent fun _ => (machine.current.declareCallable declared).2).LoopFree :=
  loopFree.modifyCurrent
    (loopFree.current.declareCallable fun _ holds => holds.insertEntry bodyLoopFree)

/-- A call leads to a body without loops. -/
theorem resolve {name : String} {arity : Nat} {entry : Entry}
    (resolves : Evaluation.resolve machine name arity = .ok (some entry)) :
    entry.callable.body.hasLoop = false := by
  obtain ⟨frame, member, scope, scopeMember, declared⟩ := exists_mem_of_resolve resolves
  exact loopFree frame member scope scopeMember entry declared

end Machine.LoopFree

/-! ## Traces that end -/

/-- The trace comes to an end.  If it finishes, it does so at a given level and no body
that is declared has a loop.  The limit is reached on the way only by an overflow. -/
inductive Trace.Settles {α : Type} (maxDepth level : Nat) : Trace α → Prop where
  | finished {passed : List Machine} {result : α} {after : Machine}
      (within : ∀ between ∈ passed, between.depth < maxDepth) (below : level < maxDepth)
      (depth : after.depth = level) (loopFree : after.LoopFree) :
      Settles maxDepth level ⟨passed, .finished result after⟩
  | halted {passed : List Machine} {reason : Halt} {after : Machine}
      (within : ∀ between ∈ passed, between.depth < maxDepth) (below : after.depth < maxDepth) :
      Settles maxDepth level ⟨passed, .halted reason after⟩
  | overflowed {passed : List Machine} {span : Span} {after : Machine} :
      Settles maxDepth level ⟨passed, .halted (.failed (.stackOverflow span)) after⟩

/-- What is done at one level comes to an end at another. -/
def Tracing.Terminates {α : Type} (maxDepth level final : Nat) (traced : Tracing α) : Prop :=
  ∀ machine : Machine, machine.depth = level → machine.LoopFree →
    (traced machine).Settles maxDepth final

namespace Tracing.Terminates

variable {α β : Type} {maxDepth level middle final : Nat}

theorem pure (below : level < maxDepth) (result : α) :
    Terminates maxDepth level level (Pure.pure result : Tracing α) :=
  fun _ depth loopFree => .finished (List.forall_mem_nil _) below depth loopFree

theorem halt (below : level < maxDepth) (reason : Halt) :
    Terminates maxDepth level final (Stepping.halt reason : Tracing α) :=
  fun _ depth _ => .halted (List.forall_mem_nil _) (depth ▸ below)

theorem ofExcept (below : level < maxDepth) (computed : Except RuntimeCause α) :
    Terminates maxDepth level level (Stepping.ofExcept computed : Tracing α) := by
  cases computed with
  | ok result => exact pure below result
  | error cause => exact halt below (.failed cause)

theorem read (below : level < maxDepth) (view : Machine → α) :
    Terminates maxDepth level level (Stepping.read view : Tracing α) :=
  fun _ depth loopFree => .finished (List.forall_mem_nil _) below depth loopFree

theorem update (below : final < maxDepth) {change : Machine → Machine}
    (depth : ∀ machine, machine.depth = level → (change machine).depth = final)
    (loopFree : ∀ machine : Machine, machine.LoopFree → (change machine).LoopFree) :
    Terminates maxDepth level final (Stepping.update change : Tracing Unit) := by
  intro machine atLevel free
  have atFinal := depth machine atLevel
  refine .finished (List.forall_mem_singleton.mpr ?_) below atFinal (loopFree machine free)
  rw [atFinal]
  exact below

/-- What is read is known to what is done next. -/
theorem readThen {view : Machine → α} {second : α → Tracing β}
    (terminates : ∀ machine : Machine, machine.depth = level → machine.LoopFree →
      (second (view machine) machine).Settles maxDepth final) :
    Terminates maxDepth level final (Stepping.read view >>= second) :=
  terminates

theorem bindAt {first : Tracing α} {second : α → Tracing β} {machine : Machine}
    (firstSettles : (first machine).Settles maxDepth middle)
    (secondSettles : middle < maxDepth → ∀ result between, between.depth = middle →
      between.LoopFree → (second result between).Settles maxDepth final) :
    ((first >>= second) machine).Settles maxDepth final := by
  change (andThen first second machine).Settles maxDepth final
  unfold andThen
  generalize first machine = trace at firstSettles
  cases firstSettles with
  | @finished passed result between within below depth loopFree =>
      have rest := secondSettles below result between depth loopFree
      dsimp only
      generalize second result between = later at rest
      cases rest with
      | finished laterWithin laterBelow laterDepth laterLoopFree =>
          exact .finished (List.forall_mem_append.mpr ⟨within, laterWithin⟩) laterBelow laterDepth
            laterLoopFree
      | halted laterWithin laterBelow =>
          exact .halted (List.forall_mem_append.mpr ⟨within, laterWithin⟩) laterBelow
      | overflowed => exact .overflowed
  | halted within below => exact .halted within below
  | overflowed => exact .overflowed

theorem bind {first : Tracing α} {second : α → Tracing β}
    (firstTerminates : first.Terminates maxDepth level middle)
    (secondTerminates : middle < maxDepth → ∀ result,
      (second result).Terminates maxDepth middle final) :
    Terminates maxDepth level final (first >>= second) :=
  fun machine depth loopFree => bindAt (firstTerminates machine depth loopFree)
    fun below result => secondTerminates below result

theorem andFinally {traced : Tracing α} {change : Machine → Machine}
    (terminates : traced.Terminates maxDepth level final)
    (depth : ∀ machine, (change machine).depth = machine.depth)
    (loopFree : ∀ machine : Machine, machine.LoopFree → (change machine).LoopFree) :
    Terminates maxDepth level final (Stepping.andFinally traced change) := by
  intro machine atLevel free
  have settles := terminates machine atLevel free
  change (finallyChange traced change machine).Settles maxDepth final
  unfold finallyChange
  generalize traced machine = trace at settles
  cases settles with
  | @finished passed result after within below atFinal afterFree =>
      have last := (depth after).trans atFinal
      refine .finished ?_ below last (loopFree after afterFree)
      exact List.forall_mem_append.mpr ⟨within, List.forall_mem_singleton.mpr (last ▸ below)⟩
  | @halted passed reason after within below =>
      rw [← depth after] at below
      exact .halted (List.forall_mem_append.mpr ⟨within, List.forall_mem_singleton.mpr below⟩)
        below
  | overflowed => exact .overflowed

end Tracing.Terminates

/-! ## Nodes and levels -/

theorem Machine.Change.depth {change : Machine → Machine} (changes : Machine.Change change)
    (machine : Machine) : (change machine).depth = machine.depth := by
  cases changes with
  | flagsRestored wasSet flags =>
      cases wasSet with
      | true => rfl
      | false => rfl
  | _ => rfl

section Declarations

open Tracing

variable {maxDepth level : Nat} (below : level < maxDepth)

include below

/-- A change of the machine that keeps its level. -/
theorem settles_modifyCurrent {machine : Machine} (depth : machine.depth = level)
    {change : Frame → Frame} (loopFree : (machine.modifyCurrent change).LoopFree) :
    ((update (·.modifyCurrent change) : Tracing Unit) machine).Settles maxDepth level := by
  refine .finished (List.forall_mem_singleton.mpr ?_) below depth loopFree
  change machine.depth < maxDepth
  rw [depth]
  exact below

theorem addVariable_terminates (binding : Variable) :
    (addVariable binding : Tracing Unit).Terminates maxDepth level level := by
  refine .readThen fun machine depth loopFree => ?_
  cases declares : machine.current.declareVariable binding with
  | ok frame => exact settles_modifyCurrent below depth (loopFree.declareVariable declares)
  | error cause => exact Terminates.halt below (.failed cause) machine depth loopFree

theorem declareCallable_terminates {declared : Callable}
    (bodyLoopFree : declared.body.hasLoop = false) :
    (declareCallable declared : Tracing Unit).Terminates maxDepth level level := by
  refine .bind (.read below _) fun _ checked => .bind (.ofExcept below checked) fun _ _ =>
    .readThen fun machine depth loopFree => ?_
  have changed := settles_modifyCurrent below depth (loopFree.declareCallable bodyLoopFree)
  exact Terminates.bindAt changed fun _ _ => Terminates.ofExcept below _

theorem resolving_terminates {α : Type} (name : String) (arity : Nat)
    {second : Option Entry → Tracing α}
    (terminates : ∀ found : Option Entry,
      (∀ entry ∈ found, entry.callable.body.hasLoop = false) →
        (second found).Terminates maxDepth level level) :
    Terminates maxDepth level level (Stepping.read (resolve · name arity) >>= fun resolved =>
      ofExcept resolved >>= second) := by
  refine .readThen fun machine depth loopFree => ?_
  cases resolves : resolve machine name arity with
  | ok found =>
      refine terminates found (fun entry isFound => ?_) machine depth loopFree
      cases isFound
      exact loopFree.resolve resolves
  | error cause => exact Terminates.halt below (.failed cause) machine depth loopFree

end Declarations

/-- What is done at a level below the limit comes to an end at this level, if the
statements have no loops. -/
def terminating {maxDepth level : Nat} (below : level < maxDepth) :
    Simulation Tracing Tracing where
  Related traced _ := traced.Terminates maxDepth level level
  Covers statement := statement.hasLoop = false
  parts := Statement.hasLoop_part
  pure := .pure below
  bind firstTerminates secondTerminates := .bind firstTerminates fun _ => secondTerminates
  halt := .halt below
  read _ := .read below _
  update changes :=
    .update below (fun machine atLevel => (changes.depth machine).trans atLevel)
      fun _ loopFree => loopFree.change changes
  andFinally changes terminates :=
    terminates.andFinally changes.depth fun _ loopFree => loopFree.change changes
  addVariable := addVariable_terminates below
  declareCallable := declareCallable_terminates below
  resolving name arity _ _ := resolving_terminates below name arity

/-- The next level is entered if it is below the limit, and overflows otherwise. -/
theorem enter_terminates (maxDepth level : Nat) (span : Span) :
    (enter maxDepth span : Tracing Unit).Terminates maxDepth level (level + 1) := by
  intro machine depth loopFree
  let entered : Machine := { machine with depth := machine.depth + 1 }
  let checked : Tracing Unit :=
    if decide (maxDepth ≤ entered.depth) = true then fail (.stackOverflow span) else return ()
  change (Trace.mk (entered :: (checked entered).passed) (checked entered).outcome).Settles
    maxDepth (level + 1)
  have enteredDepth : entered.depth = level + 1 := congrArg (· + 1) depth
  by_cases overflows : maxDepth ≤ entered.depth
  · have isChecked : checked = fail (.stackOverflow span) := if_pos (decide_eq_true overflows)
    rw [isChecked]
    exact .overflowed
  · have isChecked : checked = return () := if_neg (by simpa using overflows)
    rw [isChecked]
    have below : entered.depth < maxDepth := Nat.lt_of_not_le overflows
    exact .finished (List.forall_mem_singleton.mpr below) (enteredDepth ▸ below) enteredDepth
      loopFree

theorem leave_terminates {maxDepth level : Nat} (below : level < maxDepth) :
    (leave : Tracing Unit).Terminates maxDepth (level + 1) level :=
  .update below (fun machine depth => by simp [depth]) fun _ loopFree => loopFree

section Steps

variable {maxDepth level : Nat} {evaluate : Expression → Tracing Value}
  {execute : Statement → Tracing Flow}
  (evaluated : ∀ below : level + 1 < maxDepth, ∀ expression,
    (terminating below).Related (evaluate expression) (evaluate expression))
  (executed : ∀ below : level + 1 < maxDepth, ∀ statement : Statement,
    statement.hasLoop = false →
      (terminating below).Related (execute statement) (execute statement))

include evaluated executed

theorem expressionStep_terminates (expression : Expression) :
    (expressionStep evaluate execute maxDepth expression).Terminates maxDepth level level := by
  refine (enter_terminates maxDepth level expression.span).bind fun below _ => ?_
  have outside : level < maxDepth := Nat.lt_of_succ_lt below
  have node := (terminating below).expressionNode (evaluated below) (executed below) expression
  refine .bind ((terminating below).update (.marked expression.span)) fun _ _ => ?_
  refine .bind node fun _ value => ?_
  refine (leave_terminates outside).bind fun _ _ => ?_
  exact .bind ((terminating outside).update (.remembered value)) fun _ _ => .pure outside value

theorem statementStep_terminates {rounds : Expression → Statement → Tracing Flow}
    {statement : Statement} (loopFree : statement.hasLoop = false) :
    (statementStep evaluate execute rounds maxDepth statement).Terminates maxDepth level
      level := by
  refine (enter_terminates maxDepth level statement.span).bind fun below _ => ?_
  have outside : level < maxDepth := Nat.lt_of_succ_lt below
  have repeated (span : Span) (test : Expression) (body : Statement)
      (isLoopFree : (Statement.loop span test body).hasLoop = false) :
      (terminating below).Related (rounds test body) (rounds test body) := by
    rw [Statement.hasLoop] at isLoopFree
    cases isLoopFree
  have node := (terminating below).statementNode (evaluated below) (executed below) repeated
    loopFree
  refine .bind ((terminating below).update (.marked statement.span)) fun _ _ => ?_
  refine .bind node fun _ flow => ?_
  exact (leave_terminates outside).bind fun _ _ => .pure outside flow

end Steps

/-- The fuel suffices if it exceeds the levels that are left below the limit. -/
theorem evaluation_terminates (maxDepth fuel : Nat) {level : Nat} (isFuel : 0 < fuel)
    (enough : maxDepth ≤ level + fuel) :
    (∀ expression,
      (evaluate maxDepth fuel expression : Tracing Value).Terminates maxDepth level level) ∧
    (∀ statement : Statement, statement.hasLoop = false →
      (execute maxDepth fuel statement : Tracing Flow).Terminates maxDepth level level) := by
  induction fuel generalizing level with
  | zero => exact absurd isFuel (Nat.lt_irrefl 0)
  | succ fuel ih =>
      -- A node inside of this one is evaluated only if the next level is below the limit.
      have inside (below : level + 1 < maxDepth) := @ih (level + 1) (by omega) (by omega)
      have evaluated (below : level + 1 < maxDepth) := (inside below).1
      have executed (below : level + 1 < maxDepth) := (inside below).2
      refine ⟨fun expression => ?_, fun statement loopFree => ?_⟩
      · exact expressionStep_terminates evaluated executed expression
      · exact statementStep_terminates evaluated executed loopFree

/-! ## Main statement -/

/-- A program without loops comes to an end whatever its functions and patterns call:
fuel beyond the limit of nesting suffices.  Where the nesting reaches the limit, it ends
with a stack overflow. -/
theorem loop_free_programs_terminate (limits : Limits) {program : Statement}
    (loopFree : program.hasLoop = false) (transcript : Transcript) {fuel : Nat}
    (enough : limits.maxDepth < fuel) :
    let machine : Machine := { Machine.initial with emitted := transcript }
    (∃ result after,
      Session.run? fuel ⟨limits, some program, machine⟩ = some (result, after)) ∧
    ((∃ flow after, (execute limits.maxDepth fuel program : Action Flow) machine =
        .finished flow after) ∨
      (∃ reason after, (execute limits.maxDepth fuel program : Action Flow) machine =
        .halted reason after)) ∧
    ((∃ between ∈ ((execute limits.maxDepth fuel program : Tracing Flow) machine).passed,
        limits.maxDepth ≤ between.depth) →
      ∃ span after, (execute limits.maxDepth fuel program : Action Flow) machine =
        .halted (.failed (.stackOverflow span)) after) := by
  intro machine
  have isFuel : 0 < fuel := Nat.zero_lt_of_lt enough
  have levels : limits.maxDepth ≤ 0 + fuel := by omega
  have settles := (evaluation_terminates limits.maxDepth fuel isFuel levels).2 program loopFree
    machine rfl Machine.LoopFree.initial
  have outcome : (execute limits.maxDepth fuel program : Action Flow) machine =
      ((execute limits.maxDepth fuel program : Tracing Flow) machine).outcome := by
    rw [← Tracing.action_execute]
    rfl
  unfold Session.run?
  dsimp only
  rw [outcome]
  generalize (execute limits.maxDepth fuel program : Tracing Flow) machine = trace at settles ⊢
  cases settles with
  | @finished passed flow after within below depth afterFree =>
      refine ⟨⟨_, _, rfl⟩, .inl ⟨flow, after, rfl⟩, ?_⟩
      rintro ⟨between, member, reached⟩
      exact absurd (within between member) (Nat.not_lt.mpr reached)
  | @halted passed reason after within below =>
      refine ⟨?_, .inr ⟨reason, after, rfl⟩, ?_⟩
      · cases reason with
        | quit => exact ⟨_, _, rfl⟩
        | failed cause => exact ⟨_, _, rfl⟩
      · rintro ⟨between, member, reached⟩
        exact absurd (within between member) (Nat.not_lt.mpr reached)
  | @overflowed passed span after =>
      exact ⟨⟨_, _, rfl⟩, .inr ⟨_, after, rfl⟩, fun _ => ⟨span, after, rfl⟩⟩

/-- A function and a pattern call each other, and their program ends with an overflow. -/
theorem mutual_recursion_overflows :
    let place : Span := .firstCharacter
    let calling (name : String) : Statement :=
      .expression (.call place name [.literal place .nothing])
    let parameter : Declarator := ⟨place, false, .text, "t"⟩
    let program : Statement := .compound place
      [.function ⟨place, "F", false, [parameter], .nothing⟩ (calling "P"),
        .pattern ⟨place, "P", false, parameter⟩ (.compound place [calling "F"]), calling "F"]
    let limits : Limits := { Limits.standard with maxDepth := 20 }
    program.hasLoop = false ∧ limits.maxDepth < 21 ∧
    (∃ result after, Session.run? 21 ⟨limits, some program, .initial⟩ = some (result, after)) ∧
    ∃ span after, (execute limits.maxDepth 21 program : Action Flow) .initial =
      .halted (.failed (.stackOverflow span)) after := by
  intro place calling parameter program limits
  have loopFree : program.hasLoop = false := by decide +kernel
  have enough : limits.maxDepth < 21 := by decide
  have reached : (((execute limits.maxDepth 21 program : Tracing Flow) .initial).passed.any
      fun between => decide (limits.maxDepth ≤ between.depth)) = true := by
    decide +kernel
  obtain ⟨between, member, isReached⟩ := List.any_eq_true.mp reached
  obtain ⟨ends, -, overflows⟩ := loop_free_programs_terminate limits loopFree #[] enough
  exact ⟨loopFree, enough, ends, overflows ⟨between, member, of_decide_eq_true isReached⟩⟩

end Plainspoken
