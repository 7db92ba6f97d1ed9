import Plainspoken.Proofs.Effects
import Plainspoken.Proofs.Reachability

/-!
# Where jumps lead

Control leaves a statement only in a way that the current frame permits: on to
the next round or out of a loop only where some scope is one of a loop, and out
of a call only where some scope is one of a call, none is one of a match, and the
value fits the declared result.

The flags that permit a jump are those of the moment of the jump.  They are also
those of the moment at which the statement began: a statement that finishes adds
no flag of a loop, call or match to the scopes that were open before it, a scope
that it opens has none but that of a match, and a loop, whose flag does permit
more, takes the jumps that need it for itself.
-/

namespace Plainspoken

open List (Forall₂)
open Stepping Evaluation

/-! ## Flags of frames -/

namespace Flags

@[simp]
theorem includes_onlyLoop (flags : Flags) : flags.includes onlyLoop = flags.loop := by
  obtain ⟨loop, call, matching, lastCondition, expectValue⟩ := flags
  cases loop <;> simp [includes, without, onlyLoop, empty]

@[simp]
theorem includes_onlyCall (flags : Flags) : flags.includes onlyCall = flags.call := by
  obtain ⟨loop, call, matching, lastCondition, expectValue⟩ := flags
  cases call <;> simp [includes, without, onlyCall, empty]

@[simp]
theorem includes_onlyMatching (flags : Flags) : flags.includes onlyMatching = flags.matching := by
  obtain ⟨loop, call, matching, lastCondition, expectValue⟩ := flags
  cases matching <;> simp [includes, without, onlyMatching, empty]

end Flags

namespace Frame

variable {before after : Frame} {flow : Flow}

/-- Every scope is one of a call or of a match if and only if it was one, and of
a loop only if it was one. -/
theorem Extended.scopes_flags (extended : before.Extended after) :
    Forall₂ (fun scope later : Scope => later.flags.call = scope.flags.call ∧
      later.flags.matching = scope.flags.matching ∧
      (later.flags.loop = true → scope.flags.loop = true)) before.scopes after.scopes := by
  have scopes := extended.scopes
  generalize before.scopes = scopesBefore at scopes
  generalize after.scopes = scopesAfter at scopes
  cases scopes with
  | none => exact .nil
  | innermost inner outer =>
      refine .cons ⟨inner.call, inner.matching, inner.loop⟩ (outer.imp ?_)
      intro scope later completed
      rw [completed.flags]
      exact ⟨rfl, rfl, id⟩

/-- A frame has flags if one of its scopes had them before. -/
theorem hasFlags_of_forall₂ {flags : Flags}
    (scopes : Forall₂ (fun scope later : Scope =>
      later.flags.includes flags = true → scope.flags.includes flags = true)
      before.scopes after.scopes) (has : after.hasFlags flags = true) :
    before.hasFlags flags = true := by
  unfold hasFlags at has ⊢
  obtain ⟨later, member, includes⟩ := List.any_eq_true.mp has
  obtain ⟨scope, earlier, included⟩ := exists_mem_of_forall₂ scopes member
  exact List.any_eq_true.mpr ⟨scope, earlier, included includes⟩

/-- The ways in which control may leave a statement that runs in the frame. -/
def Permits (frame : Frame) : Flow → Prop
  | .normal => True
  | .skip | .stop => frame.hasFlags .onlyLoop = true ∧ frame.hasFlags .onlyMatching = false
  | .giveBack value =>
      frame.hasFlags .onlyCall = true ∧ frame.hasFlags .onlyMatching = false ∧
        (value = .nothing ∨ value.type = frame.returns) ∧
        (frame.returns = .nothing → value = .nothing)

/-- What is permitted in a frame was permitted before if it depends on flags that
were there before. -/
theorem Permits.of_flags (permits : after.Permits flow) (returns : after.returns = before.returns)
    (loop : flow = .skip ∨ flow = .stop → after.hasFlags .onlyLoop = true →
      before.hasFlags .onlyLoop = true)
    (call : after.hasFlags .onlyCall = true → before.hasFlags .onlyCall = true)
    (matching : before.hasFlags .onlyMatching = true → after.hasFlags .onlyMatching = true) :
    before.Permits flow := by
  have unmatched (absent : after.hasFlags .onlyMatching = false) :
      before.hasFlags .onlyMatching = false := by
    by_contra present
    rw [matching (by simpa using present)] at absent
    cases absent
  cases flow with
  | normal => trivial
  | skip => exact ⟨loop (.inl rfl) permits.1, unmatched permits.2⟩
  | stop => exact ⟨loop (.inr rfl) permits.1, unmatched permits.2⟩
  | giveBack value =>
      obtain ⟨inCall, unmatching, fits, empty⟩ := permits
      rw [returns] at fits empty
      exact ⟨call inCall, unmatched unmatching, fits, empty⟩

/-- An extended frame permits no more than the frame did. -/
theorem Permits.of_extended (permits : after.Permits flow) (extended : before.Extended after) :
    before.Permits flow := by
  have scopes := extended.scopes_flags
  refine permits.of_flags extended.returns (fun _ => ?_) ?_ ?_
  · exact hasFlags_of_forall₂ (scopes.imp fun scope later flags => by simpa using flags.2.2)
  · exact hasFlags_of_forall₂ (scopes.imp fun scope later flags => by simp [flags.1])
  · exact hasFlags_of_forall₂ (scopes.flip.imp fun later scope flags => by simp [flags.2.1])

/-- A scope without flags permits no more. -/
theorem Permits.of_pushScope {scope : Scope} (plain : scope.flags = .empty)
    (permits : (before.pushScope scope).Permits flow) : before.Permits flow := by
  refine permits.of_flags rfl (fun _ => ?_) ?_ ?_ <;>
    simp [hasFlags, Frame.pushScope, plain, Flags.empty]

/-- Marking a scope as one of a loop permits no more than the jumps that the loop
takes. -/
theorem Permits.of_setLoop (permits : (before.setFlags .onlyLoop).Permits flow)
    (leaves : flow ≠ .skip ∧ flow ≠ .stop) : before.Permits flow := by
  refine permits.of_flags rfl (fun taken => ?_) ?_ ?_
  · rcases taken with rfl | rfl
    · exact absurd rfl leaves.1
    · exact absurd rfl leaves.2
  all_goals
    unfold hasFlags Frame.setFlags Frame.modifyInnermost
    cases before.scopes <;>
      simp [Scope.setFlags, Flags.union, Flags.onlyLoop, Flags.empty]

theorem Permits.leaves (permits : after.Permits flow)
    (outside : after.hasFlags .onlyLoop = false) : flow ≠ .skip ∧ flow ≠ .stop := by
  constructor
  · rintro rfl
    exact absurd permits.1 (by simp [outside])
  · rintro rfl
    exact absurd permits.1 (by simp [outside])

theorem Permits.eq_normal (permits : after.Permits flow)
    (matching : after.hasFlags .onlyMatching = true) : flow = .normal := by
  cases flow with
  | normal => rfl
  | skip => exact absurd permits.2 (by simp [matching])
  | stop => exact absurd permits.2 (by simp [matching])
  | giveBack value => exact absurd permits.2.1 (by simp [matching])

end Frame

/-! ## Statements -/

/-- Control leaves an action only in a way that the frame it started in permits. -/
def Action.Contained (action : Action Flow) : Prop :=
  ∀ machine, action.Ensures machine fun flow _ => machine.current.Permits flow

namespace Action.Contained

variable {α : Type}

theorem normal : (pure .normal : Action Flow).Contained := by
  intro machine
  rw [ensures_pure]
  trivial

/-- What extends the frame may go before. -/
theorem bind {first : Action α} {second : α → Action Flow}
    (firstWithin : first.Within Machine.Extended) (secondContained : ∀ result, (second result).Contained) :
    (first >>= second).Contained := by
  intro machine
  rw [ensures_bind]
  intro middle between firstFinished
  have extended := firstWithin machine middle between firstFinished
  exact (secondContained middle between).mono fun flow _ permits =>
    permits.of_extended extended.current

/-- What never jumps is contained. -/
theorem thenNormal (first : Action α) :
    (do
      let _ ← first
      return .normal : Action Flow).Contained := by
  intro machine
  rw [ensures_bind]
  intro _ between _
  rw [ensures_pure]
  trivial

end Action.Contained

section Nodes

variable {evaluate : Expression → Action Value} {execute : Statement → Action Flow}
  (evaluated : ∀ expression, (evaluate expression).Within Machine.Alike)
  (executed : ∀ statement, (execute statement).Within Machine.Extended)
  (contained : ∀ statement, (execute statement).Contained)

include executed contained in
theorem block_contained (statements : List Statement) :
    (block execute statements).Contained := by
  induction statements with
  | nil => exact .normal
  | cons statement statements ih =>
      intro machine
      rw [block, Action.ensures_bind]
      intro flow between finished
      have permits := contained statement machine flow between finished
      have extended := executed statement machine flow between finished
      cases flow with
      | normal =>
          simp only [Action.ensures_bind, Action.ensures_read]
          split
          · rw [Action.ensures_pure]
            trivial
          · exact (ih between).mono fun flow _ permits => permits.of_extended extended.current
      | skip => simpa using permits
      | stop => simpa using permits
      | giveBack value => simpa using permits

include evaluated contained in
theorem conditional_contained (test : Expression) (positive : Statement)
    (negative : Option Statement) :
    (conditional evaluate execute test positive negative).Contained := by
  refine .bind ((condition_alike evaluated test).mono fun _ _ => Machine.Alike.extended)
    fun holds => ?_
  split
  · refine .bind (.update fun machine => ?_) fun _ => contained positive
    exact ⟨rfl, .setLastCondition machine.current, (CallStack.Alike.refl machine.stack).callers⟩
  · refine .bind (.update fun machine => ?_) fun _ => ?_
    · exact ⟨rfl, .unsetLastCondition machine.current,
        (CallStack.Alike.refl machine.stack).callers⟩
    · cases negative with
      | none => exact .normal
      | some negative => exact contained negative

include evaluated executed contained in
/-- A loop takes the jumps to its rounds and out of them. -/
theorem loopStep_contained {again : Expression → Statement → Action Flow}
    (repeated : ∀ test body machine, (again test body).Ensures machine
      fun flow _ => (flow ≠ .skip ∧ flow ≠ .stop) ∧ machine.current.Permits flow)
    (test : Expression) (body : Statement) (machine : Machine) :
    (loopStep evaluate execute again test body).Ensures machine
      fun flow _ => (flow ≠ .skip ∧ flow ≠ .stop) ∧ machine.current.Permits flow := by
  simp only [loopStep, Action.ensures_bind]
  refine (condition_alike evaluated test machine).mono fun holds tested alike => ?_
  have ended : ((Flow.normal ≠ .skip ∧ Flow.normal ≠ .stop) ∧
      machine.current.Permits .normal) := ⟨by simp, trivial⟩
  split
  · simp only [Action.ensures_bind, Action.ensures_update]
    intro flow after finished
    have permits := contained body _ flow after finished
    have extended := executed body _ flow after finished
    have next : (again test body).Ensures after
        fun flow _ => (flow ≠ .skip ∧ flow ≠ .stop) ∧ machine.current.Permits flow := by
      refine (repeated test body after).mono fun flow _ repeats => ?_
      obtain ⟨leaves, permits⟩ := repeats
      have inLoop : (tested.current.setFlags .onlyLoop).Permits flow :=
        permits.of_extended extended.current
      exact ⟨leaves, (inLoop.of_setLoop leaves).of_extended alike.extended.current⟩
    cases flow with
    | normal => exact next
    | skip => exact next
    | stop => simpa using ended
    | giveBack value =>
        have leaves : Flow.giveBack value ≠ .skip ∧ Flow.giveBack value ≠ .stop := by simp
        have inLoop : (tested.current.setFlags .onlyLoop).Permits (.giveBack value) := permits
        have permitted := (inLoop.of_setLoop leaves).of_extended alike.extended.current
        simpa using permitted
  · simpa using ended

theorem loopJump_contained {flow : Flow} (jumps : flow = .skip ∨ flow = .stop)
    (illegal : RuntimeCause) : (loopJump flow illegal : Action Flow).Contained := by
  intro machine
  simp only [loopJump, Action.ensures_bind, Action.ensures_read]
  split
  · exact Action.ensures_fail _ _ _
  · next unmatched =>
    split
    · next inLoop =>
      rw [Action.ensures_pure]
      rcases jumps with rfl | rfl
      · exact ⟨inLoop, Bool.eq_false_iff.mpr unmatched⟩
      · exact ⟨inLoop, Bool.eq_false_iff.mpr unmatched⟩
    · exact Action.ensures_fail _ _ _

theorem giveBack_contained (value : Option Expression) :
    (giveBack evaluate value).Contained := by
  intro machine
  simp only [giveBack, Action.ensures_bind, Action.ensures_read]
  split
  · exact Action.ensures_fail _ _ _
  · next unmatched =>
    split
    · exact Action.ensures_fail _ _ _
    · next inCall =>
      have legal : machine.current.hasFlags .onlyCall = true ∧
          machine.current.hasFlags .onlyMatching = false :=
        ⟨by simpa using inCall, Bool.eq_false_iff.mpr unmatched⟩
      split
      · exact Action.ensures_fail _ _ _
      · rw [Action.ensures_pure]
        exact ⟨legal.1, legal.2, .inl rfl, fun _ => rfl⟩
      · exact Action.ensures_fail _ _ _
      · next value declared =>
        rw [Action.ensures_bind]
        intro result after _
        rw [Action.ensures_pure]
        exact ⟨legal.1, legal.2, result.cast_eq_nothing_or_type_eq _,
          fun nothing => absurd nothing (by simpa using declared)⟩

include executed contained in
theorem compound_contained (children : List Statement) :
    (compound execute children).Contained := by
  intro machine
  simp only [compound, Action.ensures_bind, Action.ensures_update, Action.ensures_andFinally]
  exact (block_contained executed contained children _).mono fun flow _ permits =>
    Frame.Permits.of_pushScope rfl permits

/-- The scope of a match permits no jump. -/
theorem hasFlags_subjectScope (frame : Frame) (span : Span) (subject : Value) :
    (frame.pushScope (subjectScope span subject)).hasFlags .onlyMatching = true := by
  simp only [Frame.hasFlags, Frame.pushScope, List.any_cons, Flags.includes_onlyMatching]
  rfl

include contained in
theorem matching_contained (span : Span) (subject : Expression) (body : Statement) :
    (matching evaluate execute span subject body).Contained := by
  intro machine
  simp only [matching, Action.ensures_bind, Action.ensures_update, Action.ensures_andFinally]
  intro value between _
  refine (contained body _).mono fun flow _ permits => ?_
  have isNormal : flow = .normal := permits.eq_normal (hasFlags_subjectScope _ span value)
  rw [isNormal]
  trivial

include evaluated executed contained in
theorem statementNode_contained {rounds : Expression → Statement → Action Flow}
    (repeated : ∀ test body, (rounds test body).Contained) (statement : Statement) :
    (statementNode evaluate execute rounds statement).Contained := by
  cases statement with
  | expression content => exact .thenNormal _
  | «variable» declarator initial => exact .thenNormal _
  | function signature body => exact .thenNormal _
  | pattern signature body => exact .thenNormal _
  | compound span children => exact compound_contained executed contained children
  | conditional span test positive negative =>
      exact conditional_contained evaluated contained test positive negative
  | loop span test body => exact repeated test body
  | skip span => exact loopJump_contained (.inl rfl) _
  | stop span => exact loopJump_contained (.inr rfl) _
  | giveBack span value => exact giveBack_contained value
  | matching span subject body => exact matching_contained contained span subject body
  | empty span => exact .normal

end Nodes

/-! ## Whole evaluations -/

theorem execution_contained (maxDepth fuel : Nat) :
    (∀ statement, (execute maxDepth fuel statement : Action Flow).Contained) ∧
    (∀ test body machine, (executeRounds maxDepth fuel test body : Action Flow).Ensures machine
      fun flow _ => (flow ≠ .skip ∧ flow ≠ .stop) ∧ machine.current.Permits flow) := by
  induction fuel with
  | zero =>
      refine ⟨fun statement machine => ?_, fun test body machine => ?_⟩
      · exact Action.ensures_exhaust machine _
      · exact Action.ensures_exhaust machine _
  | succ fuel ih =>
      obtain ⟨contained, repeated⟩ := ih
      have evaluated := evaluate_alike maxDepth fuel
      have executed := execute_extended maxDepth fuel
      have rounds (test : Expression) (body : Statement) :
          (executeRounds maxDepth fuel test body : Action Flow).Contained :=
        fun machine => (repeated test body machine).mono fun _ _ jumps => jumps.2
      refine ⟨fun statement machine => ?_, fun test body machine => ?_⟩
      · rw [execute, ensures_statementStep]
        intro _
        -- Entering the node changes the depth and the place, on which no flag depends.
        exact (statementNode_contained evaluated executed contained rounds statement _).mono
          fun _ _ permits => permits.of_extended
            (Machine.Alike.mark machine statement.span).extended.current
      · exact loopStep_contained evaluated executed contained repeated test body machine

theorem execute_contained (maxDepth fuel : Nat) (statement : Statement) :
    (execute maxDepth fuel statement : Action Flow).Contained :=
  (execution_contained maxDepth fuel).1 statement

/-- A loop never passes on a jump to its rounds or out of them. -/
theorem execute_loop_leaves {maxDepth fuel : Nat} {span : Span} {test : Expression}
    {body : Statement} {machine after : Machine} {flow : Flow}
    (finished : (execute maxDepth fuel (.loop span test body) : Action Flow) machine =
      .finished flow after) : flow ≠ .skip ∧ flow ≠ .stop := by
  cases fuel with
  | zero => cases finished
  | succ fuel =>
      have ensured : (execute maxDepth (fuel + 1) (.loop span test body) : Action Flow).Ensures
          machine fun flow _ => flow ≠ .skip ∧ flow ≠ .stop := by
        rw [execute, ensures_statementStep]
        intro _
        exact ((execution_contained maxDepth fuel).2 test body _).mono fun _ _ jumps => jumps.1
      exact ensured flow after finished

/-! ## Frames of calls -/

theorem map_flags_insertVariable (frame : Frame) (binding : Variable) :
    (frame.insertVariable binding).scopes.map Scope.flags = frame.scopes.map Scope.flags := by
  unfold Frame.insertVariable Frame.modifyInnermost
  cases frame.scopes <;> rfl

/-- The only scope of a function is one of a call and of nothing else. -/
theorem map_flags_functionFrame (signature : FunctionSignature) (span : Span)
    (parameters : List Variable) :
    (functionFrame signature span parameters).scopes.map Scope.flags = [.onlyCall] := by
  have kept (frame : Frame) : (parameters.foldl Frame.insertVariable frame).scopes.map
      Scope.flags = frame.scopes.map Scope.flags := by
    induction parameters generalizing frame with
    | nil => rfl
    | cons parameter parameters ih => rw [List.foldl_cons, ih, map_flags_insertVariable]
  have started := kept (Frame.start signature.name span signature.returns)
  unfold functionFrame Frame.setFlags Frame.modifyInnermost
  generalize (parameters.foldl Frame.insertVariable _).scopes = scopes at started ⊢
  cases scopes with
  | nil => cases started
  | cons scope scopes =>
      obtain ⟨flags, rest⟩ := List.cons.inj started
      simp only [List.modifyHead_cons, List.map_cons, Scope.setFlags, rest, flags]
      rfl

theorem hasFlags_functionFrame (signature : FunctionSignature) (span : Span)
    (parameters : List Variable) :
    (functionFrame signature span parameters).hasFlags .onlyLoop = false := by
  have flags : (functionFrame signature span parameters).hasFlags .onlyLoop =
      ((functionFrame signature span parameters).scopes.map Scope.flags).any
        (·.includes .onlyLoop) := by
    rw [List.any_map]
    rfl
  rw [flags, map_flags_functionFrame]
  rfl

theorem hasFlags_patternFrame (signature : PatternSignature) (span : Span) (value : Value)
    (site : Option Site) :
    (patternFrame signature span value site).hasFlags .onlyMatching = true :=
  rfl

/-! ## Sessions -/

/-- The sessions that building, running and resetting lead to. -/
inductive Session.Batch : Session → Prop where
  | start (limits : Limits) : Batch (.start limits)
  | build {session : Session} (batch : session.Batch) (source : String) :
      Batch (session.build source).2
  | reset {session : Session} (batch : session.Batch) : Batch session.reset
  | run {session after : Session} {fuel : Nat} {result : Except RuntimeError Unit}
      (batch : session.Batch) (runs : session.run? fuel = some (result, after)) : Batch after

theorem Session.Batch.reached {session : Session} (batch : session.Batch) : session.Reached := by
  induction batch with
  | start limits => exact .start limits
  | build batch source ih => exact .build ih source
  | reset batch ih => exact .reset ih
  | run batch runs ih => exact .run ih runs

/-- Between its runs such a session rests on the stack it started with. -/
theorem Session.Batch.stack_eq {session : Session} (batch : session.Batch) :
    session.machine.stack = Machine.initial.stack := by
  induction batch with
  | start limits => rfl
  | build batch source ih =>
      unfold Session.build
      split
      · exact ih
      · exact ih
  | reset batch ih => rfl
  | run batch runs ih =>
      rcases Session.run?_resets runs with rfl | ⟨machine, rfl⟩
      · exact ih
      · rfl

/-! ## Main statement -/

/-- Control leaves a statement with a jump to a round or out of a loop only if a
scope of the frame was one of a loop, and with a jump out of a call only if a
scope was one of a call and none one of a match; the value that the call gives
back is then nothing, or of the declared type where one is declared.  So the body
of a function ends normally or gives back a value, that of a match or pattern ends
normally, a loop passes no jump on that is meant for it, and no jump of a loop
ends the run of a program. -/
theorem jumps_are_contained (maxDepth fuel : Nat) :
    (∀ (statement : Statement) (machine after : Machine) (flow : Flow),
      (execute maxDepth fuel statement : Action Flow) machine = .finished flow after →
        (flow = .skip ∨ flow = .stop → machine.current.hasFlags .onlyLoop = true) ∧
        (∀ value, flow = .giveBack value →
          machine.current.hasFlags .onlyCall = true ∧
          machine.current.hasFlags .onlyMatching = false ∧
          (value = .nothing ∨ value.type = machine.current.returns) ∧
          (machine.current.returns = .nothing → value = .nothing))) ∧
    (∀ (signature : FunctionSignature) (body : Statement) (span : Span)
        (parameters : List Variable) (machine after : Machine) (flow : Flow),
      (execute maxDepth fuel body : Action Flow)
          (machine.pushFrame (functionFrame signature span parameters)) = .finished flow after →
        flow = .normal ∨ ∃ value, flow = .giveBack value) ∧
    (∀ (body : Statement) (span : Span) (subject : Value) (machine after : Machine) (flow : Flow),
      (execute maxDepth fuel body : Action Flow) (machine.pushScope (subjectScope span subject)) =
          .finished flow after →
        flow = .normal) ∧
    (∀ (signature : PatternSignature) (body : Statement) (span : Span) (value : Value)
        (site : Option Site) (machine after : Machine) (flow : Flow),
      (execute maxDepth fuel body : Action Flow)
          (machine.pushFrame (patternFrame signature span value site)) = .finished flow after →
        flow = .normal) ∧
    (∀ (span : Span) (test : Expression) (body : Statement) (machine after : Machine)
        (flow : Flow),
      (execute maxDepth fuel (.loop span test body) : Action Flow) machine =
          .finished flow after →
        flow ≠ .skip ∧ flow ≠ .stop) ∧
    (∀ (session : Session) (program : Statement) (after : Machine) (flow : Flow),
      session.Batch → session.program = some program →
      (execute session.limits.maxDepth fuel program : Action Flow) session.machine =
          .finished flow after →
        flow ≠ .skip ∧ flow ≠ .stop) := by
  refine ⟨?_, ?_, ?_, ?_, ?_, ?_⟩
  · intro statement machine after flow finished
    have permits := execute_contained maxDepth fuel statement machine flow after finished
    refine ⟨?_, ?_⟩
    · rintro (rfl | rfl)
      · exact permits.1
      · exact permits.1
    · rintro value rfl
      exact permits
  · intro signature body span parameters machine after flow finished
    have permits := execute_contained maxDepth fuel body _ flow after finished
    have leaves := permits.leaves (hasFlags_functionFrame signature span parameters)
    cases flow with
    | normal => exact .inl rfl
    | skip => exact absurd rfl leaves.1
    | stop => exact absurd rfl leaves.2
    | giveBack value => exact .inr ⟨value, rfl⟩
  · intro body span subject machine after flow finished
    have permits := execute_contained maxDepth fuel body _ flow after finished
    exact permits.eq_normal (hasFlags_subjectScope _ span subject)
  · intro signature body span value site machine after flow finished
    have permits := execute_contained maxDepth fuel body _ flow after finished
    exact permits.eq_normal (hasFlags_patternFrame signature span value site)
  · intro span test body machine after flow finished
    exact execute_loop_leaves finished
  · intro session program after flow batch _ finished
    have permits := execute_contained _ fuel program session.machine flow after finished
    refine permits.leaves ?_
    rw [Machine.current, batch.stack_eq]
    rfl

/-- A function whose loop is left by giving back a value, the same loop left by
`STOP` as a program, and a branch of a match and of a pattern. -/
theorem jumps_out_of_loops_are_contained :
    let place : Span := .firstCharacter
    let holds : Expression := .literal place (.fact true)
    let leaving : Statement := .loop place holds
      (.compound place [.conditional place holds (.giveBack place (some holds)) none])
    let stopping : Statement := .loop place holds (.stop place)
    let branch : Statement := .conditional place holds (.empty place) none
    let function : FunctionSignature := ⟨place, "F", false, [], .fact⟩
    let pattern : PatternSignature := ⟨place, "P", false, ⟨place, false, .fact, "p"⟩⟩
    let inFunction : Machine := Machine.initial.pushFrame (functionFrame function place [])
    let inPattern : Machine := Machine.initial.pushFrame
      (patternFrame pattern place (.fact true) none)
    let inMatch : Machine := Machine.initial.pushScope (subjectScope place (.fact true))
    let inLoop : Machine := Machine.initial.setFlags .onlyLoop
    let session : Session := ((Session.start .standard).build "WHILE TRUE DO STOP;").2
    (∃ after, (execute 9 9 leaving : Action Flow) inFunction =
        .finished (.giveBack (.fact true)) after ∧
      inFunction.current.hasFlags .onlyCall = true ∧
      inFunction.current.hasFlags .onlyMatching = false ∧
      (Value.fact true).type = inFunction.current.returns) ∧
    (∃ after, (execute 9 9 (.stop place) : Action Flow) inLoop = .finished .stop after ∧
      inLoop.current.hasFlags .onlyLoop = true) ∧
    (∃ flow after, (execute 9 9 leaving : Action Flow) inFunction = .finished flow after ∧
      (flow = .normal ∨ ∃ value, flow = .giveBack value)) ∧
    (∃ flow after, (execute 9 9 branch : Action Flow) inMatch = .finished flow after ∧
      flow = .normal) ∧
    (∃ flow after, (execute 9 9 branch : Action Flow) inPattern = .finished flow after ∧
      flow = .normal) ∧
    (∃ flow after, (execute 9 9 stopping : Action Flow) .initial = .finished flow after ∧
      flow ≠ .skip ∧ flow ≠ .stop) ∧
    (∃ program flow after, session.Batch ∧ session.program = some program ∧
      (execute session.limits.maxDepth 9 program : Action Flow) session.machine =
        .finished flow after ∧
      flow ≠ .skip ∧ flow ≠ .stop) := by
  intro place holds leaving stopping branch function pattern inFunction inPattern inMatch inLoop session
  obtain ⟨statements, functions, branches, patterns, loops, programs⟩ := jumps_are_contained 9 9
  have batch : session.Batch := .build (.start .standard) _
  refine ⟨?_, ?_, ?_, ?_, ?_, ?_, ?_⟩
  · refine ⟨_, rfl, ?_⟩
    obtain ⟨-, returning⟩ := statements leaving inFunction _ _ rfl
    obtain ⟨inCall, unmatched, fits | nothing, -⟩ := returning _ rfl
    · cases fits
    · exact ⟨inCall, unmatched, nothing⟩
  · exact ⟨_, rfl, (statements (.stop place) inLoop _ _ rfl).1 (.inr rfl)⟩
  · exact ⟨_, _, rfl, functions function leaving place [] .initial _ _ rfl⟩
  · exact ⟨_, _, rfl, branches branch place (.fact true) .initial _ _ rfl⟩
  · exact ⟨_, _, rfl, patterns pattern branch place (.fact true) none .initial _ _ rfl⟩
  · exact ⟨_, _, rfl, loops place holds (.stop place) .initial _ _ rfl⟩
  · exact ⟨_, _, _, batch, rfl, rfl, programs session _ _ _ batch rfl rfl⟩

end Plainspoken
