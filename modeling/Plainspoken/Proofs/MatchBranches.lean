import Plainspoken.Proofs.Effects
import Plainspoken.Proofs.Fuel

/-!
# The branches of a match

A match is a block of conditionals, and its innermost scope remembers whether
the last condition held.  The first branch whose condition holds is selected as
in a chain of alternatives, but it need not be the last one that runs: a
conditional among the statements of the branch writes to the same memory, and
where it forgets that a condition held the match goes on with the branches after
the selected one.
-/

namespace Plainspoken

open List (Forall₂)
open Stepping Evaluation

/-! ## Rules for statements -/

namespace Machine

/-- The machine one level deeper, at a node. -/
def entered (machine : Machine) (span : Span) : Machine :=
  { machine with depth := machine.depth + 1 }.mark span

def left (machine : Machine) : Machine :=
  { machine with depth := machine.depth - 1 }

end Machine

section Rules

variable {maxDepth : Nat} {machine after : Machine} {flow : Flow}

theorem execute_succ_finished_iff {fuel : Nat} {statement : Statement} :
    (execute maxDepth (fuel + 1) statement : Action Flow) machine = .finished flow after ↔
      machine.depth + 1 < maxDepth ∧ ∃ between,
        (statementNode (evaluate maxDepth fuel) (execute maxDepth fuel)
          (executeRounds maxDepth fuel) statement : Action Flow)
          (machine.entered statement.span) = .finished flow between ∧ between.left = after := by
  rw [execute]
  simp only [statementStep, Action.finished_bind, Action.finished_enter, Action.finished_update,
    Action.finished_leave, Action.finished_pure]
  constructor
  · rintro ⟨_, _, ⟨shallow, rfl⟩, _, _, rfl, _, between, runs, _, _, rfl, rfl, rfl⟩
    exact ⟨shallow, between, runs, rfl⟩
  · rintro ⟨shallow, between, runs, rfl⟩
    exact ⟨(), _, ⟨shallow, rfl⟩, (), _, rfl, flow, between, runs, (), _, rfl, rfl, rfl⟩

theorem Executes.of_node (fuel : Nat) {statement : Statement} {between : Machine}
    (shallow : machine.depth + 1 < maxDepth)
    (runs : (statementNode (evaluate maxDepth fuel) (execute maxDepth fuel)
      (executeRounds maxDepth fuel) statement : Action Flow)
      (machine.entered statement.span) = .finished flow between) :
    Executes maxDepth statement machine flow between.left :=
  ⟨fuel + 1, execute_succ_finished_iff.mpr ⟨shallow, between, runs, rfl⟩⟩

theorem Executes.exists_node {statement : Statement}
    (executes : Executes maxDepth statement machine flow after) :
    machine.depth + 1 < maxDepth ∧ ∃ fuel between,
      (statementNode (evaluate maxDepth fuel) (execute maxDepth fuel)
        (executeRounds maxDepth fuel) statement : Action Flow)
        (machine.entered statement.span) = .finished flow between ∧ between.left = after := by
  obtain ⟨fuel, finished⟩ := executes
  cases fuel with
  | zero => cases finished
  | succ fuel =>
      obtain ⟨shallow, between, runs, ends⟩ := execute_succ_finished_iff.mp finished
      exact ⟨shallow, fuel, between, runs, ends⟩

theorem executes_compound_iff {span : Span} {children : List Statement} :
    Executes maxDepth (.compound span children) machine flow after ↔
      machine.depth + 1 < maxDepth ∧ ∃ between,
        ExecutesAll maxDepth children ((machine.entered span).pushScope .empty) flow between ∧
        between.popScope.left = after := by
  constructor
  · intro executes
    obtain ⟨shallow, fuel, between, runs, rfl⟩ := executes.exists_node
    simp only [statementNode, compound, Action.finished_bind, Action.finished_update,
      Action.finished_andFinally] at runs
    obtain ⟨_, _, rfl, last, runs, rfl⟩ := runs
    exact ⟨shallow, last, ⟨fuel, runs⟩, rfl⟩
  · rintro ⟨shallow, last, ⟨fuel, runs⟩, rfl⟩
    refine Executes.of_node fuel shallow ?_
    simp only [statementNode, compound, Action.finished_bind, Action.finished_update,
      Action.finished_andFinally]
    exact ⟨(), _, rfl, last, runs, rfl⟩

theorem executes_matching_iff {span : Span} {subject : Expression} {body : Statement} :
    Executes maxDepth (.matching span subject body) machine flow after ↔
      machine.depth + 1 < maxDepth ∧ ∃ value between last,
        Yields maxDepth subject (machine.entered span) value between ∧
        Executes maxDepth body (between.pushScope (subjectScope span value)) flow last ∧
        last.popScope.left = after := by
  constructor
  · intro executes
    obtain ⟨shallow, fuel, between, runs, rfl⟩ := executes.exists_node
    simp only [statementNode, matching, Action.finished_bind, Action.finished_update,
      Action.finished_andFinally] at runs
    obtain ⟨value, yielded, yields, _, _, rfl, last, runs, rfl⟩ := runs
    exact ⟨shallow, value, yielded, last, ⟨fuel, yields⟩, ⟨fuel, runs⟩, rfl⟩
  · rintro ⟨shallow, value, yielded, last, ⟨subjectFuel, yields⟩, ⟨bodyFuel, runs⟩, rfl⟩
    have yields' := Finishes.of_le (usedValue_approximates maxDepth · subject) yields
      (Nat.le_max_left subjectFuel bodyFuel)
    have runs' := Finishes.of_le (execute_approximates maxDepth · body) runs
      (Nat.le_max_right subjectFuel bodyFuel)
    refine Executes.of_node (max subjectFuel bodyFuel) shallow ?_
    simp only [statementNode, matching, Action.finished_bind, Action.finished_update,
      Action.finished_andFinally]
    exact ⟨value, yielded, yields', (), _, rfl, last, runs', rfl⟩

/-- A conditional that has no second part. -/
theorem executes_conditional_iff {span : Span} {test : Expression} {positive : Statement} :
    Executes maxDepth (.conditional span test positive none) machine flow after ↔
      machine.depth + 1 < maxDepth ∧
      ((∃ decided between, Decides maxDepth test (machine.entered span) true decided ∧
          Executes maxDepth positive (decided.setFlags .onlyLastCondition) flow between ∧
          between.left = after) ∨
        (∃ decided, Decides maxDepth test (machine.entered span) false decided ∧
          flow = .normal ∧ (decided.unsetFlags .onlyLastCondition).left = after)) := by
  constructor
  · intro executes
    obtain ⟨shallow, fuel, between, runs, rfl⟩ := executes.exists_node
    simp only [statementNode, conditional, Action.finished_bind] at runs
    obtain ⟨holds, decided, decides, runs⟩ := runs
    cases holds with
    | true =>
        simp only [if_true, Action.finished_bind, Action.finished_update] at runs
        obtain ⟨_, _, rfl, runs⟩ := runs
        exact ⟨shallow, .inl ⟨decided, between, ⟨fuel, decides⟩, ⟨fuel, runs⟩, rfl⟩⟩
    | false =>
        simp only [Bool.false_eq_true, if_false, Action.finished_bind, Action.finished_update,
          Action.finished_pure] at runs
        obtain ⟨_, _, rfl, rfl, rfl⟩ := runs
        exact ⟨shallow, .inr ⟨decided, ⟨fuel, decides⟩, rfl, rfl⟩⟩
  · rintro ⟨shallow, ⟨decided, between, ⟨testFuel, decides⟩, ⟨bodyFuel, runs⟩, rfl⟩ |
      ⟨decided, ⟨fuel, decides⟩, rfl, rfl⟩⟩
    · have decides' := Finishes.of_le (condition_approximates maxDepth · test) decides
        (Nat.le_max_left testFuel bodyFuel)
      have runs' := Finishes.of_le (execute_approximates maxDepth · positive) runs
        (Nat.le_max_right testFuel bodyFuel)
      refine Executes.of_node (max testFuel bodyFuel) shallow ?_
      simp only [statementNode, conditional, Action.finished_bind]
      refine ⟨true, decided, decides', ?_⟩
      simp only [if_true, Action.finished_bind, Action.finished_update]
      exact ⟨(), _, rfl, runs'⟩
    · refine Executes.of_node fuel shallow ?_
      simp only [statementNode, conditional, Action.finished_bind]
      refine ⟨false, decided, decides, ?_⟩
      simp only [Bool.false_eq_true, if_false, Action.finished_bind, Action.finished_update,
        Action.finished_pure]
      exact ⟨(), _, rfl, trivial, rfl⟩

@[simp]
theorem executesAll_nil_iff :
    ExecutesAll maxDepth [] machine flow after ↔ flow = .normal ∧ after = machine := by
  constructor
  · rintro ⟨fuel, finished⟩
    obtain ⟨rfl, rfl⟩ := (Action.finished_pure _).mp finished
    exact ⟨rfl, rfl⟩
  · rintro ⟨rfl, rfl⟩
    exact ⟨0, rfl⟩

theorem executesAll_cons_iff {statement : Statement} {statements : List Statement} :
    ExecutesAll maxDepth (statement :: statements) machine flow after ↔
      ∃ inner between, Executes maxDepth statement machine inner between ∧
        if inner = .normal ∧ between.current.sumsToFlags branchTaken = false then
          ExecutesAll maxDepth statements between flow after
        else flow = inner ∧ after = between := by
  constructor
  · rintro ⟨fuel, finished⟩
    simp only [block, Action.finished_bind] at finished
    obtain ⟨inner, between, runs, rest⟩ := finished
    refine ⟨inner, between, ⟨fuel, runs⟩, ?_⟩
    cases inner with
    | normal =>
        simp only [Action.finished_bind, Action.finished_read] at rest
        obtain ⟨_, _, ⟨rfl, rfl⟩, rest⟩ := rest
        cases taken : between.current.sumsToFlags branchTaken with
        | true =>
            rw [taken, if_pos rfl, Action.finished_pure] at rest
            simpa using ⟨rest.1.symm, rest.2.symm⟩
        | false =>
            rw [taken, if_neg (by simp)] at rest
            simpa using ⟨fuel, rest⟩
    | skip =>
        obtain ⟨rfl, rfl⟩ := (Action.finished_pure _).mp rest
        exact ⟨rfl, rfl⟩
    | stop =>
        obtain ⟨rfl, rfl⟩ := (Action.finished_pure _).mp rest
        exact ⟨rfl, rfl⟩
    | giveBack value =>
        obtain ⟨rfl, rfl⟩ := (Action.finished_pure _).mp rest
        exact ⟨rfl, rfl⟩
  · rintro ⟨inner, between, ⟨firstFuel, runs⟩, rest⟩
    split at rest
    · next goesOn =>
      obtain ⟨rfl, untaken⟩ := goesOn
      obtain ⟨restFuel, rest⟩ := rest
      have runs' := Finishes.of_le (execute_approximates maxDepth · statement) runs
        (Nat.le_max_left firstFuel restFuel)
      have rest' := Finishes.of_le (block_approximates maxDepth · statements) rest
        (Nat.le_max_right firstFuel restFuel)
      refine ⟨max firstFuel restFuel, ?_⟩
      simp only [block, Action.finished_bind]
      refine ⟨.normal, between, runs', ?_⟩
      simp only [Action.finished_bind, Action.finished_read]
      refine ⟨_, _, ⟨rfl, rfl⟩, ?_⟩
      rw [untaken]
      exact rest'
    · next ends =>
      obtain ⟨rfl, rfl⟩ := rest
      refine ⟨firstFuel, ?_⟩
      simp only [block, Action.finished_bind]
      refine ⟨flow, after, runs, ?_⟩
      cases flow with
      | normal =>
          have taken : after.current.sumsToFlags branchTaken = true := by simpa using ends
          simp only [Action.finished_bind, Action.finished_read]
          refine ⟨_, _, ⟨rfl, rfl⟩, ?_⟩
          rw [taken]
          rfl
      | skip => rfl
      | stop => rfl
      | giveBack value => rfl

end Rules

theorem Decides.alike {maxDepth : Nat} {test : Expression} {machine after : Machine}
    {holds : Bool} (decides : Decides maxDepth test machine holds after) :
    machine.Alike after := by
  obtain ⟨fuel, finished⟩ := decides
  exact condition_alike (evaluate_alike maxDepth fuel) test machine holds after finished

theorem Yields.alike {maxDepth : Nat} {expression : Expression} {machine after : Machine}
    {value : Value} (yields : Yields maxDepth expression machine value after) :
    machine.Alike after := by
  obtain ⟨fuel, finished⟩ := yields
  exact usedValue_alike (evaluate_alike maxDepth fuel) expression machine value after finished

theorem Executes.extended {maxDepth : Nat} {statement : Statement} {machine after : Machine}
    {flow : Flow} (executes : Executes maxDepth statement machine flow after) :
    machine.Extended after := by
  obtain ⟨fuel, finished⟩ := executes
  exact execute_extended maxDepth fuel statement machine flow after finished

/-! ## What scopes remember -/

namespace Frame

/-- No scope remembers that a condition held. -/
def Unmarked (frame : Frame) : Prop :=
  ∀ scope ∈ frame.scopes, scope.flags.lastCondition = false

/-- Whether the innermost scope remembers that a condition held. -/
def remembers (frame : Frame) : Bool :=
  frame.innermostFlags.lastCondition

/-- The scopes around the innermost one remember nothing, and one of them is
that of a match. -/
def InMatch (frame : Frame) : Prop :=
  ∃ inner outer, frame.scopes = inner :: outer ∧
    (∀ scope ∈ outer, scope.flags.lastCondition = false) ∧
    ∃ scope ∈ outer, scope.flags.matching = true

theorem foldl_union_flags (start : Flags) (scopes : List Scope) :
    (scopes.foldl (fun sum scope => sum.union scope.flags) start).matching =
        (start.matching || scopes.any (·.flags.matching)) ∧
      (scopes.foldl (fun sum scope => sum.union scope.flags) start).lastCondition =
        (start.lastCondition || scopes.any (·.flags.lastCondition)) := by
  induction scopes generalizing start with
  | nil => simp
  | cons scope scopes ih =>
      rw [List.foldl_cons, (ih _).1, (ih _).2]
      simp [Flags.union, Bool.or_assoc]

theorem includes_branchTaken (flags : Flags) :
    flags.includes branchTaken = (flags.matching && flags.lastCondition) := by
  obtain ⟨loop, call, matching, lastCondition, expectValue⟩ := flags
  revert matching lastCondition
  decide +revert

theorem InMatch.sumsToFlags {frame : Frame} (inMatch : frame.InMatch) :
    frame.sumsToFlags branchTaken = frame.remembers := by
  obtain ⟨inner, outer, scopes, forgotten, matched⟩ := inMatch
  have noneOutside : outer.any (·.flags.lastCondition) = false := by
    simpa using forgotten
  have someOutside : outer.any (·.flags.matching) = true := by
    simpa using matched
  unfold Frame.sumsToFlags remembers Frame.innermostFlags
  rw [includes_branchTaken, (foldl_union_flags _ _).1, (foldl_union_flags _ _).2, scopes]
  simp [noneOutside, someOutside, Flags.empty]

theorem InMatch.of_extended {before after : Frame} (inMatch : before.InMatch)
    (extended : before.Extended after) : after.InMatch := by
  obtain ⟨inner, outer, scopes, forgotten, scope, member, matched⟩ := inMatch
  have changes := extended.scopes
  rw [scopes] at changes
  cases changesEq : after.scopes with
  | nil =>
      rw [changesEq] at changes
      cases changes
  | cons inner' outer' =>
      rw [changesEq] at changes
      cases changes with
      | innermost _ completed =>
          refine ⟨inner', outer', changesEq, ?_, ?_⟩
          · intro other otherMember
            obtain ⟨earlier, earlierMember, kept⟩ := exists_mem_of_forall₂ completed otherMember
            rw [kept.flags]
            exact forgotten earlier earlierMember
          · obtain ⟨later, laterMember, kept⟩ :=
              exists_mem_of_forall₂ completed.flip member
            exact ⟨later, laterMember, by rw [kept.flags, matched]⟩

theorem InMatch.modifyInnermost {frame : Frame} (inMatch : frame.InMatch)
    (change : Scope → Scope) : (frame.modifyInnermost change).InMatch := by
  obtain ⟨inner, outer, scopes, rest⟩ := inMatch
  exact ⟨change inner, outer, by simp [Frame.modifyInnermost, scopes], rest⟩

theorem innermostFlags_of_completed {before after : Frame} (completed : before.Completed after) :
    after.innermostFlags = before.innermostFlags := by
  obtain ⟨_, _, _, scopesBefore⟩ := before
  obtain ⟨_, _, _, scopesAfter⟩ := after
  have scopes : Forall₂ Scope.Completed scopesBefore scopesAfter := completed.scopes
  cases scopes with
  | nil => rfl
  | cons inner _ => exact inner.flags

theorem innermostFlags_modifyInnermost (frame : Frame) {change : Scope → Scope}
    (kept : ∀ scope : Scope, (change scope).flags = scope.flags) :
    (frame.modifyInnermost change).innermostFlags = frame.innermostFlags := by
  unfold Frame.innermostFlags Frame.modifyInnermost
  cases frame.scopes with
  | nil => rfl
  | cons inner outer => simp [kept]

theorem InMatch.remembers_setLastCondition {frame : Frame} (inMatch : frame.InMatch) :
    (frame.setFlags .onlyLastCondition).remembers = true := by
  obtain ⟨inner, outer, scopes, -⟩ := inMatch
  simp [remembers, Frame.innermostFlags, Frame.setFlags, Frame.modifyInnermost, scopes,
    Scope.setFlags, Flags.union, Flags.onlyLastCondition]

private theorem unsetLastCondition_of_not_remembers {frame : Frame}
    (forgotten : frame.remembers = false) :
    frame.unsetFlags .onlyLastCondition = frame := by
  obtain ⟨name, span, returns, scopes⟩ := frame
  cases scopes with
  | nil => rfl
  | cons inner outer =>
      obtain ⟨bindings, entries, ⟨loop, call, matching, lastCondition, expectValue⟩⟩ := inner
      have cleared : lastCondition = false := forgotten
      subst cleared
      simp [Frame.unsetFlags, Frame.modifyInnermost, Scope.unsetFlags, Flags.without,
        Flags.onlyLastCondition, Flags.empty]

end Frame

/-! ## Selecting a branch -/

structure Branch where
  span : Span
  test : Expression
  statement : Statement

/-- The conditional that a branch stands for. -/
def Branch.conditional (branch : Branch) : Statement :=
  .conditional branch.span branch.test branch.statement none

/-- The branch for everything that no other branch is taken for. -/
def Branch.otherwise (span : Span) (statement : Statement) : Branch :=
  ⟨span, .literal span (.fact true), statement⟩

/-- The conditions of branches are evaluated in order up to the first one that
holds.  It belongs to the branch that is selected, and no other is evaluated. -/
inductive Selects (maxDepth : Nat) :
    List Branch → Machine → Branch → List Branch → Machine → Prop where
  | here {branch : Branch} {later : List Branch} {machine selected : Machine}
      (shallow : machine.depth + 1 < maxDepth)
      (holds : Decides maxDepth branch.test (machine.entered branch.span) true selected) :
      Selects maxDepth (branch :: later) machine branch later selected
  | next {branch chosen : Branch} {branches later : List Branch}
      {machine between selected : Machine} (shallow : machine.depth + 1 < maxDepth)
      (fails : Decides maxDepth branch.test (machine.entered branch.span) false between)
      (rest : Selects maxDepth branches between.left chosen later selected) :
      Selects maxDepth (branch :: branches) machine chosen later selected

/-- What runs once a branch is selected: its statement, in a scope that remembers
that the condition held.  If that is forgotten meanwhile, the branches after it
run as well. -/
def RunsSelected (maxDepth : Nat) (chosen : Branch) (later : List Branch) (selected : Machine)
    (flow : Flow) (last : Machine) : Prop :=
  ∃ inner after,
    Executes maxDepth chosen.statement (selected.setFlags .onlyLastCondition) inner after ∧
      if inner = .normal ∧ after.current.remembers = false then
        ExecutesAll maxDepth (later.map Branch.conditional) after.left flow last
      else flow = inner ∧ last = after.left

section Branches

variable {maxDepth : Nat} {machine last : Machine} {flow : Flow}

theorem inMatch_decided {test : Expression} {span : Span} {decided : Machine} {holds : Bool}
    (inMatch : machine.current.InMatch)
    (decides : Decides maxDepth test (machine.entered span) holds decided) :
    decided.current.InMatch ∧ decided.current.remembers = machine.current.remembers := by
  have alike := decides.alike.stack.current
  refine ⟨inMatch.of_extended (Frame.Completed.extended ?_), ?_⟩
  · exact ⟨alike.name, alike.returns, alike.completed.scopes⟩
  · have flags := Frame.innermostFlags_of_completed alike.completed
    exact congrArg Flags.lastCondition flags

theorem unsetLastCondition_eq (forgotten : machine.current.remembers = false) :
    machine.unsetFlags .onlyLastCondition = machine := by
  have frame := Frame.unsetLastCondition_of_not_remembers forgotten
  obtain ⟨⟨current, callers⟩, depth, lastValue, emitted⟩ := machine
  simp only [Machine.current] at frame
  simp only [Machine.unsetFlags, Machine.modifyCurrent, CallStack.modifyCurrent, frame]

/-- One branch of a match. -/
theorem executesAll_branch_iff {branch : Branch} {branches : List Branch}
    (inMatch : machine.current.InMatch) (forgotten : machine.current.remembers = false) :
    ExecutesAll maxDepth ((branch :: branches).map Branch.conditional) machine flow last ↔
      machine.depth + 1 < maxDepth ∧
      ((∃ selected, Decides maxDepth branch.test (machine.entered branch.span) true selected ∧
          RunsSelected maxDepth branch branches selected flow last) ∨
        (∃ between, Decides maxDepth branch.test (machine.entered branch.span) false between ∧
          ExecutesAll maxDepth (branches.map Branch.conditional) between.left flow last)) := by
  rw [List.map_cons, executesAll_cons_iff]
  constructor
  · rintro ⟨inner, between, executes, rest⟩
    obtain ⟨shallow, ⟨selected, after, decides, runs, rfl⟩ | ⟨decided, decides, rfl, rfl⟩⟩ :=
      executes_conditional_iff.mp executes
    · refine ⟨shallow, .inl ⟨selected, decides, inner, after, runs, ?_⟩⟩
      have inMatch' := ((inMatch_decided inMatch decides).1.modifyInnermost _).of_extended
        runs.extended.current
      have taken : after.left.current.sumsToFlags branchTaken = after.current.remembers :=
        inMatch'.sumsToFlags
      rw [taken] at rest
      exact rest
    · refine ⟨shallow, .inr ⟨decided, decides, ?_⟩⟩
      obtain ⟨inMatch', same⟩ := inMatch_decided inMatch decides
      have forgotten' : decided.current.remembers = false := same.trans forgotten
      have untaken : decided.left.current.sumsToFlags branchTaken = false :=
        inMatch'.sumsToFlags.trans forgotten'
      rw [unsetLastCondition_eq forgotten', if_pos ⟨rfl, untaken⟩] at rest
      exact rest
  · rintro ⟨shallow, ⟨selected, decides, inner, after, runs, rest⟩ | ⟨decided, decides, rest⟩⟩
    · refine ⟨inner, after.left, executes_conditional_iff.mpr
        ⟨shallow, .inl ⟨selected, after, decides, runs, rfl⟩⟩, ?_⟩
      have inMatch' := ((inMatch_decided inMatch decides).1.modifyInnermost _).of_extended
        runs.extended.current
      have taken : after.left.current.sumsToFlags branchTaken = after.current.remembers :=
        inMatch'.sumsToFlags
      rw [taken]
      exact rest
    · obtain ⟨inMatch', same⟩ := inMatch_decided inMatch decides
      have forgotten' : decided.current.remembers = false := same.trans forgotten
      have untaken : decided.left.current.sumsToFlags branchTaken = false :=
        inMatch'.sumsToFlags.trans forgotten'
      refine ⟨.normal, decided.left, executes_conditional_iff.mpr
        ⟨shallow, .inr ⟨decided, decides, rfl, ?_⟩⟩, ?_⟩
      · rw [unsetLastCondition_eq forgotten']
      · rw [if_pos ⟨rfl, untaken⟩]
        exact rest

private theorem not_decides_otherwise {span span' : Span} {decided : Machine}
    (decides : Decides maxDepth (.literal span (.fact true)) (machine.entered span') false
      decided) : False := by
  obtain ⟨fuel, finished⟩ := decides
  cases fuel with
  | zero =>
      simp only [condition, usedValue, Action.finished_bind, Action.finished_andFinally] at finished
      obtain ⟨_, _, ⟨_, _, _, _, _, _, _, exhausted, _⟩, _⟩ := finished
      cases exhausted
  | succ fuel =>
      simp only [condition, usedValue, evaluate, expressionStep, expressionNode,
        Action.finished_bind, Action.finished_andFinally, Action.finished_pure] at finished
      obtain ⟨value, _, ⟨_, _, _, _, _, _, _, ⟨_, _, _, _, _, _, _, _, ⟨rfl, _⟩, _, _, _, _, _, _,
        rfl, _⟩, _⟩, isFact⟩ := finished
      cases isFact

/-- The branches of a match, the last of which is always taken if no other is. -/
theorem executesAll_branches_iff {branches : List Branch} {span : Span} {default : Statement}
    (inMatch : machine.current.InMatch) (forgotten : machine.current.remembers = false) :
    ExecutesAll maxDepth ((branches ++ [Branch.otherwise span default]).map Branch.conditional)
        machine flow last ↔
      ∃ chosen later selected,
        Selects maxDepth (branches ++ [.otherwise span default]) machine chosen later selected ∧
        RunsSelected maxDepth chosen later selected flow last := by
  induction branches generalizing machine with
  | nil =>
      rw [List.nil_append, executesAll_branch_iff inMatch forgotten]
      constructor
      · rintro ⟨shallow, ⟨selected, decides, runs⟩ | ⟨between, decides, _⟩⟩
        · exact ⟨_, _, selected, .here shallow decides, runs⟩
        · exact (not_decides_otherwise decides).elim
      · rintro ⟨chosen, later, selected, selects, runs⟩
        cases selects with
        | here shallow decides => exact ⟨shallow, .inl ⟨selected, decides, runs⟩⟩
        | next shallow decides rest => cases rest
  | cons branch branches ih =>
      rw [List.cons_append, executesAll_branch_iff inMatch forgotten]
      constructor
      · rintro ⟨shallow, ⟨selected, decides, runs⟩ | ⟨between, decides, rest⟩⟩
        · exact ⟨_, _, selected, .here shallow decides, runs⟩
        · obtain ⟨inMatch', same⟩ := inMatch_decided inMatch decides
          have inMatch'' : between.left.current.InMatch := inMatch'
          have forgotten' : between.left.current.remembers = false := same.trans forgotten
          obtain ⟨chosen, later, selected, selects, runs⟩ := (ih inMatch'' forgotten').mp rest
          exact ⟨chosen, later, selected, .next shallow decides selects, runs⟩
      · rintro ⟨chosen, later, selected, selects, runs⟩
        cases selects with
        | here shallow decides => exact ⟨shallow, .inl ⟨selected, decides, runs⟩⟩
        | @next _ _ _ _ _ between _ shallow decides rest =>
            obtain ⟨inMatch', same⟩ := inMatch_decided inMatch decides
            have inMatch'' : between.left.current.InMatch := inMatch'
            have forgotten' : between.left.current.remembers = false := same.trans forgotten
            exact ⟨shallow, .inr ⟨between, decides,
              (ih inMatch'' forgotten').mpr ⟨chosen, later, selected, rest, runs⟩⟩⟩

end Branches

/-! ## Statements that leave the memory alone -/

/-- Whether a statement is neither a conditional nor a loop. -/
def Statement.keepsMemory : Statement → Bool
  | .conditional _ _ _ _ => false
  | .loop _ _ _ => false
  | _ => true

namespace Frame

theorem innermostFlags_declareVariable {before after : Frame} {binding : Variable}
    (declared : before.declareVariable binding = .ok after) :
    after.innermostFlags = before.innermostFlags := by
  unfold Frame.declareVariable at declared
  split at declared
  · cases declared
  · cases declared
    exact innermostFlags_modifyInnermost before fun _ => rfl

theorem innermostFlags_declareCallable (frame : Frame) (declared : Callable) :
    (frame.declareCallable declared).2.innermostFlags = frame.innermostFlags := by
  have checked : ({ frame with scopes := (completeIn declared frame.scopes).scopes } :
      Frame).innermostFlags = frame.innermostFlags :=
    innermostFlags_of_completed ⟨rfl, rfl, completeIn_completed declared frame.scopes⟩
  simp only [Frame.declareCallable]
  split
  · exact checked
  · split
    · split
      · exact checked
      · exact checked
    · rw [← checked]
      exact innermostFlags_modifyInnermost _ fun scope : Scope =>
        show (scope.insertEntry ⟨declared, none⟩).flags = scope.flags from rfl

end Frame

/-- The innermost scope of the current frame has the flags it had. -/
def Machine.SameFlags (before after : Machine) : Prop :=
  after.current.innermostFlags = before.current.innermostFlags

instance : Std.Refl Machine.SameFlags :=
  ⟨fun _ => rfl⟩

instance : IsTrans Machine Machine.SameFlags :=
  ⟨fun _ _ _ firstSecond secondThird => secondThird.trans firstSecond⟩

theorem Machine.Alike.sameFlags {before after : Machine} (alike : before.Alike after) :
    before.SameFlags after :=
  Frame.innermostFlags_of_completed alike.stack.current.completed

section Memory

variable {evaluate : Expression → Action Value} {execute : Statement → Action Flow}
  (evaluated : ∀ expression, (evaluate expression).Within Machine.Alike)
  (executed : ∀ statement, (execute statement).Within Machine.Extended)

include evaluated in
theorem usedValue_sameFlags (expression : Expression) :
    (usedValue evaluate expression).Within Machine.SameFlags :=
  (usedValue_alike evaluated expression).mono fun _ _ => Machine.Alike.sameFlags

theorem addVariable_sameFlags (binding : Variable) :
    (addVariable binding : Action Unit).Within Machine.SameFlags := by
  intro machine
  unfold addVariable
  simp only [Action.ensures_bind, Action.ensures_read]
  cases declared : machine.current.declareVariable binding with
  | error cause => exact Action.ensures_fail cause machine _
  | ok frame =>
      rw [Action.ensures_update]
      exact Frame.innermostFlags_declareVariable declared

include evaluated in
theorem declareVariable_sameFlags (declarator : Declarator) (initial : Option Expression) :
    (declareVariable evaluate declarator initial).Within Machine.SameFlags := by
  unfold declareVariable
  split
  · exact .fail _
  · cases initial with
    | none => exact .bind (.pure _) addVariable_sameFlags
    | some initial =>
        exact .bind (usedValue_sameFlags evaluated initial) fun _ =>
          .bind (.pure _) addVariable_sameFlags

theorem declareCallable_sameFlags (declared : Callable) :
    (declareCallable declared : Action Unit).Within Machine.SameFlags := by
  refine .bind (.read _) fun _ => .bind (.ofExcept _) fun _ => ?_
  intro machine
  simp only [Action.ensures_bind, Action.ensures_read, Action.ensures_update]
  rw [Action.ensures_ofExcept]
  intro _ _
  exact Frame.innermostFlags_declareCallable machine.current declared

theorem inScope_sameFlags {running : Action Flow} (runs : running.Within Machine.Extended)
    (scope : Scope) :
    (do
      update (·.pushScope scope)
      andFinally running (·.popScope) : Action Flow).Within Machine.SameFlags :=
  (inScope_completed runs scope).mono fun _ _ completed =>
    Frame.innermostFlags_of_completed completed.current

include evaluated executed in
theorem statementNode_sameFlags {rounds : Expression → Statement → Action Flow}
    {statement : Statement} (keeps : statement.keepsMemory = true) :
    (statementNode evaluate execute rounds statement).Within Machine.SameFlags := by
  have jumps (flow : Flow) (illegal : RuntimeCause) :
      (loopJump flow illegal : Action Flow).Within Machine.SameFlags := by
    refine .bind (.read _) fun frame => ?_
    split
    · exact .fail _
    · split
      · exact .pure _
      · exact .fail _
  cases statement with
  | expression content =>
      exact .bind ((evaluated content).mono fun _ _ => Machine.Alike.sameFlags) fun _ => .pure _
  | «variable» declarator initial =>
      exact .bind (declareVariable_sameFlags evaluated declarator initial) fun _ => .pure _
  | function signature body => exact .bind (declareCallable_sameFlags _) fun _ => .pure _
  | pattern signature body => exact .bind (declareCallable_sameFlags _) fun _ => .pure _
  | compound span children => exact inScope_sameFlags (block_extended executed children) .empty
  | conditional span test positive negative => cases keeps
  | loop span test body => cases keeps
  | skip span => exact jumps _ _
  | stop span => exact jumps _ _
  | giveBack span value =>
      refine .bind (.read _) fun frame => ?_
      split
      · exact .fail _
      · split
        · exact .fail _
        · split
          · exact .fail _
          · exact .pure _
          · exact .fail _
          · exact .bind (usedValue_sameFlags evaluated _) fun _ => .pure _
  | matching span subject body =>
      exact .bind (usedValue_sameFlags evaluated subject) fun value =>
        inScope_sameFlags (executed body) (subjectScope span value)
  | empty span => exact .pure _

end Memory

/-- A statement that is neither a conditional nor a loop leaves it to the
innermost scope what it remembers. -/
theorem Executes.remembers_eq {maxDepth : Nat} {statement : Statement}
    {machine after : Machine} {flow : Flow}
    (executes : Executes maxDepth statement machine flow after)
    (keeps : statement.keepsMemory = true) :
    after.current.remembers = machine.current.remembers := by
  obtain ⟨_, fuel, between, runs, rfl⟩ := executes.exists_node
  have same := statementNode_sameFlags (evaluate_alike maxDepth fuel)
    (execute_extended maxDepth fuel) keeps _ flow between runs
  exact congrArg Flags.lastCondition same

/-! ## Whole matches -/

def matchStatement (span : Span) (subject : Expression) (blockSpan : Span)
    (branches : List Branch) (defaultSpan : Span) (default : Statement) : Statement :=
  .matching span subject
    (.compound blockSpan ((branches ++ [Branch.otherwise defaultSpan default]).map
      Branch.conditional))

namespace Machine

/-- The machine on which the branches of a match run: the subject is bound in a
scope of its own, around the scope of the block. -/
def openMatch (machine : Machine) (span : Span) (subject : Value) (blockSpan : Span) : Machine :=
  ((machine.pushScope (subjectScope span subject)).entered blockSpan).pushScope .empty

def closeMatch (machine : Machine) : Machine :=
  machine.popScope.left.popScope.left

theorem openMatch_inMatch {machine : Machine} (unmarked : machine.current.Unmarked)
    (span : Span) (subject : Value) (blockSpan : Span) :
    (machine.openMatch span subject blockSpan).current.InMatch ∧
      (machine.openMatch span subject blockSpan).current.remembers = false := by
  refine ⟨⟨.empty, subjectScope span subject :: machine.current.scopes, rfl, ?_, ?_⟩, rfl⟩
  · intro scope member
    rcases List.mem_cons.mp member with rfl | inFrame
    · rfl
    · exact unmarked scope inFrame
  · exact ⟨subjectScope span subject, List.mem_cons_self, rfl⟩

end Machine

theorem Yields.unmarked {maxDepth : Nat} {expression : Expression} {machine after : Machine}
    {value : Value} (yields : Yields maxDepth expression machine value after)
    (unmarked : machine.current.Unmarked) : after.current.Unmarked := by
  intro scope member
  obtain ⟨earlier, earlierMember, alike⟩ :=
    exists_mem_of_forall₂ yields.alike.stack.current.scopes member
  rw [alike.flags]
  exact unmarked earlier earlierMember

/-- Up to the statement that it selects, a match evaluates its subject, binds it
in a fresh scope, and evaluates the conditions of its branches in order up to the
first one that holds. -/
def TakesBranch (maxDepth : Nat) (span : Span) (subject : Expression) (blockSpan : Span)
    (branches : List Branch) (machine : Machine) (chosen : Branch) (later : List Branch)
    (selected : Machine) : Prop :=
  machine.depth + 1 < maxDepth ∧ ∃ value between,
    Yields maxDepth subject (machine.entered span) value between ∧
    between.depth + 1 < maxDepth ∧
    Selects maxDepth branches (between.openMatch span value blockSpan) chosen later selected

theorem executes_matchStatement_iff {maxDepth : Nat} {span blockSpan defaultSpan : Span}
    {subject : Expression} {branches : List Branch} {default : Statement}
    {machine final : Machine} {flow : Flow} (unmarked : machine.current.Unmarked) :
    Executes maxDepth (matchStatement span subject blockSpan branches defaultSpan default)
        machine flow final ↔
      ∃ chosen later selected last,
        TakesBranch maxDepth span subject blockSpan
          (branches ++ [.otherwise defaultSpan default]) machine chosen later selected ∧
        RunsSelected maxDepth chosen later selected flow last ∧ last.closeMatch = final := by
  unfold matchStatement TakesBranch
  rw [executes_matching_iff]
  constructor
  · rintro ⟨shallow, value, between, inner, yields, executes, rfl⟩
    obtain ⟨shallow', last, runs, rfl⟩ := executes_compound_iff.mp executes
    obtain ⟨inMatch, forgotten⟩ :=
      Machine.openMatch_inMatch (yields.unmarked unmarked) span value blockSpan
    obtain ⟨chosen, later, selected, selects, runs⟩ :=
      (executesAll_branches_iff inMatch forgotten).mp runs
    exact ⟨chosen, later, selected, last,
      ⟨shallow, value, between, yields, shallow', selects⟩, runs, rfl⟩
  · rintro ⟨chosen, later, selected, last,
      ⟨shallow, value, between, yields, shallow', selects⟩, runs, rfl⟩
    obtain ⟨inMatch, forgotten⟩ :=
      Machine.openMatch_inMatch (yields.unmarked unmarked) span value blockSpan
    have runs' := (executesAll_branches_iff inMatch forgotten).mpr
      ⟨chosen, later, selected, selects, runs⟩
    exact ⟨shallow, value, between, last.popScope.left, yields,
      executes_compound_iff.mpr ⟨shallow', last, runs', rfl⟩, rfl⟩

/-! ## One branch or several -/

/-- What a match should do: take the first branch whose condition holds, execute
its statement, and close the scopes. -/
def RunsOneBranch (maxDepth : Nat) (span : Span) (subject : Expression) (blockSpan : Span)
    (branches : List Branch) (machine : Machine) (flow : Flow) (final : Machine) : Prop :=
  ∃ chosen later selected after,
    TakesBranch maxDepth span subject blockSpan branches machine chosen later selected ∧
    Executes maxDepth chosen.statement (selected.setFlags .onlyLastCondition) flow after ∧
    after.left.closeMatch = final

theorem Selects.unique {maxDepth : Nat} {branches later later' : List Branch}
    {machine selected selected' : Machine} {chosen chosen' : Branch}
    (first : Selects maxDepth branches machine chosen later selected)
    (second : Selects maxDepth branches machine chosen' later' selected') :
    chosen = chosen' ∧ later = later' ∧ selected = selected' := by
  induction first with
  | here shallow holds =>
      cases second with
      | here _ holds' =>
          obtain ⟨-, rfl⟩ := Finishes.unique (condition_approximates maxDepth · _) holds holds'
          exact ⟨rfl, rfl, rfl⟩
      | next _ fails' _ =>
          obtain ⟨contradiction, -⟩ :=
            Finishes.unique (condition_approximates maxDepth · _) holds fails'
          cases contradiction
  | next shallow fails rest ih =>
      cases second with
      | here _ holds' =>
          obtain ⟨contradiction, -⟩ :=
            Finishes.unique (condition_approximates maxDepth · _) fails holds'
          cases contradiction
      | next _ fails' rest' =>
          obtain ⟨-, rfl⟩ := Finishes.unique (condition_approximates maxDepth · _) fails fails'
          exact ih rest'

theorem TakesBranch.unique {maxDepth : Nat} {span blockSpan : Span} {subject : Expression}
    {branches later later' : List Branch} {machine selected selected' : Machine}
    {chosen chosen' : Branch}
    (first : TakesBranch maxDepth span subject blockSpan branches machine chosen later selected)
    (second : TakesBranch maxDepth span subject blockSpan branches machine chosen' later'
      selected') :
    chosen = chosen' ∧ later = later' ∧ selected = selected' := by
  obtain ⟨-, value, between, yields, -, selects⟩ := first
  obtain ⟨-, value', between', yields', -, selects'⟩ := second
  obtain ⟨rfl, rfl⟩ := Finishes.unique (usedValue_approximates maxDepth · subject) yields yields'
  exact selects.unique selects'

theorem Selects.inMatch {maxDepth : Nat} {branches later : List Branch}
    {machine selected : Machine} {chosen : Branch}
    (selects : Selects maxDepth branches machine chosen later selected)
    (inMatch : machine.current.InMatch) : selected.current.InMatch := by
  induction selects with
  | here shallow holds => exact (inMatch_decided inMatch holds).1
  | next shallow fails rest ih => exact ih (inMatch_decided inMatch fails).1

theorem TakesBranch.inMatch {maxDepth : Nat} {span blockSpan : Span} {subject : Expression}
    {branches later : List Branch} {machine selected : Machine} {chosen : Branch}
    (takes : TakesBranch maxDepth span subject blockSpan branches machine chosen later selected)
    (unmarked : machine.current.Unmarked) : selected.current.InMatch := by
  obtain ⟨-, value, between, yields, -, selects⟩ := takes
  have opened := Machine.openMatch_inMatch (yields.unmarked unmarked) span value blockSpan
  exact selects.inMatch opened.1

/-- A match that finishes has selected the first branch whose condition holds and
has executed its statement.  It does no more than that as long as the scope of the
branches still remembers that the condition held, or no branch is left; a
statement that is neither a conditional nor a loop leaves it remembered.
Otherwise the match goes on with the branches after the selected one. -/
theorem match_runs_one_branch_while_remembered {maxDepth : Nat}
    {span blockSpan defaultSpan : Span} {subject : Expression} {branches : List Branch}
    {default : Statement} {machine final : Machine} {flow : Flow}
    (unmarked : machine.current.Unmarked)
    (executes : Executes maxDepth
      (matchStatement span subject blockSpan branches defaultSpan default) machine flow final) :
    ∃ chosen later selected inner after,
      TakesBranch maxDepth span subject blockSpan (branches ++ [.otherwise defaultSpan default])
        machine chosen later selected ∧
      Executes maxDepth chosen.statement (selected.setFlags .onlyLastCondition) inner after ∧
      (chosen.statement.keepsMemory = true → after.current.remembers = true) ∧
      if inner = .normal ∧ after.current.remembers = false ∧ later ≠ [] then
        ∃ last, ExecutesAll maxDepth (later.map Branch.conditional) after.left flow last ∧
          last.closeMatch = final
      else
        ∀ flow' final', RunsOneBranch maxDepth span subject blockSpan
          (branches ++ [.otherwise defaultSpan default]) machine flow' final' ↔
            flow' = flow ∧ final' = final := by
  obtain ⟨chosen, later, selected, last, takes, ⟨inner, after, runs, rest⟩, rfl⟩ :=
    (executes_matchStatement_iff unmarked).mp executes
  refine ⟨chosen, later, selected, inner, after, takes, runs, ?_, ?_⟩
  · intro keeps
    rw [runs.remembers_eq keeps]
    exact (takes.inMatch unmarked).remembers_setLastCondition
  · split
    · next goesOn =>
      obtain ⟨normal, forgotten, -⟩ := goesOn
      rw [if_pos ⟨normal, forgotten⟩] at rest
      exact ⟨last, rest, rfl⟩
    · next settled =>
      have ended : flow = inner ∧ last = after.left := by
        split at rest
        · next goesOn =>
          have noneLeft : later = [] := by
            by_contra someLeft
            exact settled ⟨goesOn.1, goesOn.2, someLeft⟩
          rw [noneLeft, List.map_nil, executesAll_nil_iff] at rest
          exact ⟨rest.1.trans goesOn.1.symm, rest.2⟩
        · exact rest
      obtain ⟨rfl, rfl⟩ := ended
      intro flow' final'
      constructor
      · rintro ⟨chosen', later', selected', after', takes', runs', rfl⟩
        obtain ⟨rfl, rfl, rfl⟩ := takes.unique takes'
        obtain ⟨rfl, rfl⟩ := runs.unique runs'
        exact ⟨rfl, rfl⟩
      · rintro ⟨rfl, rfl⟩
        exact ⟨chosen, later, selected, after, takes, runs, rfl⟩

/-- A match whose first branch is a conditional that does not hold, in a program
that has just started. -/
theorem match_of_conditional_selects_branch :
    let place : Span := .firstCharacter
    let holds : Expression := .literal place (.fact true)
    let fails : Expression := .literal place (.fact false)
    let branch : Branch := ⟨place, holds, .conditional place fails (.empty place) none⟩
    Machine.initial.current.Unmarked ∧
    ∃ flow final,
      Executes 9 (matchStatement place holds place [branch] place (.empty place))
        Machine.initial flow final ∧
      ∃ chosen later selected inner after,
        TakesBranch 9 place holds place [branch, .otherwise place (.empty place)]
          Machine.initial chosen later selected ∧
        Executes 9 chosen.statement (selected.setFlags .onlyLastCondition) inner after ∧
        (chosen.statement.keepsMemory = true → after.current.remembers = true) := by
  intro place holds fails branch
  have unmarked : Machine.initial.current.Unmarked := by
    intro scope member
    rcases List.mem_cons.mp member with rfl | outer
    · rfl
    · rw [List.mem_singleton.mp outer]
      rfl
  have executes : Executes 9 (matchStatement place holds place [branch] place (.empty place))
      Machine.initial .normal _ := ⟨9, rfl⟩
  obtain ⟨chosen, later, selected, inner, after, takes, runs, keeps, -⟩ :=
    match_runs_one_branch_while_remembered unmarked executes
  exact ⟨unmarked, _, _, executes, chosen, later, selected, inner, after, takes, runs, keeps⟩

/-- The statement for everything else runs although the branch before it was
taken: the conditional inside that branch made its scope forget it. -/
example :
    let place : Span := .firstCharacter
    let holds : Expression := .literal place (.fact true)
    let fails : Expression := .literal place (.fact false)
    let branch : Branch := ⟨place, holds, .conditional place fails (.empty place) none⟩
    let prints : Statement :=
      .expression (.call place "Print" [.literal place (.text "default")])
    (match (execute 9 9 (matchStatement place holds place [branch] place prints) : Action Flow)
        Machine.initial with
      | .finished _ after => after.emitted.size
      | _ => 0) = 1 := by
  decide +kernel

end Plainspoken
