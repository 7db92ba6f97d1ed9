import Plainspoken.Proofs.Blocks
import Plainspoken.Proofs.Tracing
import Plainspoken.Proofs.UsedValues

/-!
# Matches behind a condition that held

A match looks for the memory of a condition that held in all scopes of the current
frame.  Where a scope around the match remembers one, the match takes itself to have
found its branch as soon as it has tried the first one, whether that branch was taken
or not, and the branches after it are neither tested nor executed.

What the first branch executes cannot change this, since a statement leaves it to the
scopes around the innermost one what they remember.
-/

namespace Plainspoken

open Stepping Evaluation

/-! ## One branch -/

def matchOfBranches (span : Span) (subject : Expression) (blockSpan : Span)
    (branches : List Branch) : Statement :=
  .matching span subject (.compound blockSpan (branches.map Branch.conditional))

/-- A branch is tried: its condition is evaluated, and its statement is executed if and
only if the condition holds. -/
inductive Branch.Tries (maxDepth : Nat) (branch : Branch) (machine : Machine) :
    Flow → Machine → Prop where
  | taken {decided after : Machine} {flow : Flow}
      (holds : Decides maxDepth branch.test (machine.entered branch.span) true decided)
      (executes : Executes maxDepth branch.statement (decided.setFlags .onlyLastCondition) flow
        after) :
      Branch.Tries maxDepth branch machine flow after.left
  | refused {decided : Machine}
      (fails : Decides maxDepth branch.test (machine.entered branch.span) false decided) :
      Branch.Tries maxDepth branch machine .normal (decided.unsetFlags .onlyLastCondition).left

theorem executes_branch_iff {maxDepth : Nat} {branch : Branch} {machine after : Machine}
    {flow : Flow} :
    Executes maxDepth branch.conditional machine flow after ↔
      machine.depth + 1 < maxDepth ∧ branch.Tries maxDepth machine flow after := by
  unfold Branch.conditional
  rw [executes_conditional_iff]
  refine and_congr_right fun _ => ⟨?_, ?_⟩
  · rintro (⟨decided, between, holds, executes, rfl⟩ | ⟨decided, fails, rfl, rfl⟩)
    · exact .taken holds executes
    · exact .refused fails
  · intro tries
    cases tries with
    | taken holds executes => exact .inl ⟨_, _, holds, executes, rfl⟩
    | refused fails => exact .inr ⟨_, fails, rfl, rfl⟩

/-! ## The memory around a match -/

/-- The scopes around the innermost one are those of a match and of a condition that
held, wherever they stand. -/
structure Frame.Silenced (frame : Frame) : Prop where
  matching : frame.hasFlags .onlyMatching = true
  remembered : frame.popScope.hasFlags .onlyLastCondition = true

theorem Frame.Silenced.of_extended {before after : Frame} (silenced : before.Silenced)
    (extended : before.Extended after) : after.Silenced where
  matching := extended.hasFlags_onlyMatching.trans silenced.matching
  remembered := (extended.popScope_hasFlags _).trans silenced.remembered

theorem Frame.Silenced.sumsToFlags {frame : Frame} (silenced : frame.Silenced) :
    frame.sumsToFlags branchTaken = true := by
  rw [Frame.sumsToFlags_branchTaken, Frame.hasTakenBranch, silenced.matching,
    Frame.hasFlags_onlyLastCondition, silenced.remembered, Bool.or_true, Bool.and_true]

section Memory

variable {maxDepth : Nat} {machine between : Machine} {span : Span} {subject : Expression}
  {value : Value}

theorem Yields.silenced_openMatch (remembered : machine.current.hasFlags .onlyLastCondition = true)
    (yields : Yields maxDepth subject (machine.entered span) value between) (blockSpan : Span) :
    (between.openMatch span value blockSpan).current.Silenced where
  matching := rfl
  remembered := (yields.alike.stack.current.hasFlags _).trans remembered

/-- Behind the scopes of a match and of a condition that held, a block executes its first
statement only. -/
theorem executesAll_silenced_iff {first : Statement} {later : List Statement} {after : Machine}
    {flow : Flow} (silenced : machine.current.Silenced) :
    ExecutesAll maxDepth (first :: later) machine flow after ↔
      Executes maxDepth first machine flow after := by
  rw [executesAll_cons_iff]
  constructor
  · rintro ⟨inner, between, executes, rest⟩
    have taken := (silenced.of_extended executes.extended.current).sumsToFlags
    rw [if_neg (by simp [taken])] at rest
    obtain ⟨rfl, rfl⟩ := rest
    exact executes
  · intro executes
    have taken := (silenced.of_extended executes.extended.current).sumsToFlags
    exact ⟨flow, after, executes, by rw [if_neg (by simp [taken])]; exact ⟨rfl, rfl⟩⟩

end Memory

/-! ## Traces -/

/-- Statements that stand at the same place and do the same one level deeper. -/
theorem Tracing.execute_eq_execute {maxDepth fuel : Nat} {machine : Machine}
    {first second : Statement} (place : first.span = second.span)
    (same : (statementNode (evaluate maxDepth fuel) (execute maxDepth fuel)
        (executeRounds maxDepth fuel) first : Tracing Flow) (machine.entered first.span) =
      (statementNode (evaluate maxDepth fuel) (execute maxDepth fuel)
        (executeRounds maxDepth fuel) second : Tracing Flow) (machine.entered first.span)) :
    (execute maxDepth (fuel + 1) first : Tracing Flow) machine =
      (execute maxDepth (fuel + 1) second : Tracing Flow) machine := by
  rw [execute, execute, statementStep, statementStep, ← place]
  refine bind_eq_bind rfl fun _ deeper enters => ?_
  have entering : (enter maxDepth first.span : Tracing Unit).action =
      enter maxDepth first.span := (forgetting.nests maxDepth).enter first.span
  rw [entering, Action.finished_enter] at enters
  obtain ⟨-, rfl⟩ := enters
  refine bind_eq_bind rfl fun _ marked marks => ?_
  cases marks
  exact bind_eq_bind same fun _ _ _ => rfl

section Traces

variable {maxDepth fuel : Nat} {machine : Machine}

theorem traced_block_silenced (first : Statement) (later : List Statement)
    (silenced : machine.current.Silenced) :
    (block (execute maxDepth fuel) (first :: later) : Tracing Flow) machine =
      (block (execute maxDepth fuel) [first] : Tracing Flow) machine := by
  refine Tracing.bind_eq_bind rfl fun flow between finished => ?_
  rw [Tracing.action_execute] at finished
  have extended := execute_extended maxDepth fuel first machine flow between finished
  have taken := (silenced.of_extended extended.current).sumsToFlags
  cases flow with
  | normal =>
      refine Tracing.bind_eq_bind rfl fun sums after reads => ?_
      cases reads
      simp only [taken]
      rfl
  | skip => rfl
  | stop => rfl
  | giveBack value => rfl

/-- Whether it ends or not, the match passes through the machines that a match of its
first branch alone passes through. -/
theorem traced_match_silenced (span blockSpan : Span) (subject : Expression) (first : Branch)
    (later : List Branch) (remembered : machine.current.hasFlags .onlyLastCondition = true) :
    (execute maxDepth fuel (matchOfBranches span subject blockSpan (first :: later)) :
        Tracing Flow) machine =
      (execute maxDepth fuel (matchOfBranches span subject blockSpan [first]) :
        Tracing Flow) machine := by
  cases fuel with
  | zero => rfl
  | succ fuel =>
    refine Tracing.execute_eq_execute rfl (Tracing.bind_eq_bind rfl fun value between yields => ?_)
    rw [Tracing.action_usedValue, funext (Tracing.action_evaluate maxDepth fuel)] at yields
    have yields : Yields maxDepth subject (machine.entered span) value between := ⟨fuel, yields⟩
    have silenced := yields.silenced_openMatch remembered blockSpan
    refine Tracing.bind_eq_bind rfl fun _ opened opens => Tracing.andFinally_eq_andFinally ?_
    cases opens
    cases fuel with
    | zero => rfl
    | succ fuel =>
      refine Tracing.execute_eq_execute rfl (Tracing.bind_eq_bind rfl fun _ inside pushes => ?_)
      cases pushes
      exact Tracing.andFinally_eq_andFinally (traced_block_silenced _ _ silenced)

end Traces

/-! ## Main statement -/

/-- Where a scope of the current frame remembers that a condition held, a match that ends
has evaluated its subject, tried its first branch, and closed its scopes: no other branch
has a part in it, that for everything else included unless it is the first one.  Nor do
the branches after the first have a part in a match that does not end. -/
theorem remembered_condition_silences_branches {maxDepth : Nat} {span blockSpan : Span}
    {subject : Expression} {first : Branch} {later : List Branch} {machine : Machine}
    (remembered : machine.current.hasFlags .onlyLastCondition = true) :
    (∀ flow final,
      Executes maxDepth (matchOfBranches span subject blockSpan (first :: later)) machine flow
          final ↔
        machine.depth + 1 < maxDepth ∧ ∃ value between last,
          Yields maxDepth subject (machine.entered span) value between ∧
          between.depth + 2 < maxDepth ∧
          first.Tries maxDepth (between.openMatch span value blockSpan) flow last ∧
          last.closeMatch = final) ∧
    ∀ fuel,
      (execute maxDepth fuel (matchOfBranches span subject blockSpan (first :: later)) :
          Tracing Flow) machine =
        (execute maxDepth fuel (matchOfBranches span subject blockSpan [first]) :
          Tracing Flow) machine := by
  refine ⟨fun flow final => ?_, fun fuel => ?_⟩
  · unfold matchOfBranches
    rw [executes_matching_iff, List.map_cons]
    refine and_congr_right fun _ => ⟨?_, ?_⟩
    · rintro ⟨value, between, inner, yields, executes, rfl⟩
      obtain ⟨shallow, last, runs, rfl⟩ := executes_compound_iff.mp executes
      have silenced := yields.silenced_openMatch remembered blockSpan
      obtain ⟨deeper, tries⟩ :=
        executes_branch_iff.mp ((executesAll_silenced_iff silenced).mp runs)
      exact ⟨value, between, last, yields, deeper, tries, rfl⟩
    · rintro ⟨value, between, last, yields, deeper, tries, rfl⟩
      have silenced := yields.silenced_openMatch remembered blockSpan
      have runs : ExecutesAll maxDepth (first.conditional :: later.map Branch.conditional)
          (between.openMatch span value blockSpan) flow last :=
        (executesAll_silenced_iff silenced).mpr (executes_branch_iff.mpr ⟨deeper, tries⟩)
      have shallow : between.depth + 1 < maxDepth := by omega
      exact ⟨value, between, last.popScope.left, yields,
        executes_compound_iff.mpr ⟨shallow, last, runs, rfl⟩, rfl⟩
  · exact traced_match_silenced span blockSpan subject first later remembered

/-- A match in a block behind a condition that held.  Its first branch is taken and forgets,
in its own scope, that a condition held; the statement for everything else, which prints,
is silenced all the same. -/
theorem block_behind_condition_silences_default :
    let place : Span := .firstCharacter
    let holds : Expression := .literal place (.fact true)
    let fails : Expression := .literal place (.fact false)
    let first : Branch := ⟨place, holds, .conditional place fails (.empty place) none⟩
    let prints : Statement :=
      .expression (.call place "Print" [.literal place (.text "default")])
    let inside : Machine := (Machine.initial.setFlags .onlyLastCondition).pushScope .empty
    inside.current.hasFlags .onlyLastCondition = true ∧
    ∃ final,
      Executes 9 (matchOfBranches place holds place [first, .otherwise place prints]) inside
        .normal final ∧
      final.emitted.size = 0 ∧
      ∃ value between last,
        Yields 9 holds (inside.entered place) value between ∧
        first.Tries 9 (between.openMatch place value place) .normal last ∧
        last.closeMatch = final := by
  intro place holds fails first prints inside
  have executes : Executes 9
      (matchOfBranches place holds place [first, .otherwise place prints]) inside .normal _ :=
    ⟨9, rfl⟩
  obtain ⟨-, value, between, last, yields, -, tries, closes⟩ :=
    ((remembered_condition_silences_branches rfl).1 _ _).mp executes
  exact ⟨rfl, _, executes, rfl, value, between, last, yields, tries, closes⟩

end Plainspoken
