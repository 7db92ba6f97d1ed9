import Plainspoken.Proofs.Jumps
import Plainspoken.Proofs.MatchBranches

/-!
# Blocks that end early

A block executes its statements in order and ends early where control jumps.  It also
ends, without a jump, after a statement that leaves a frame in which one scope is that
of a match and one remembers that a condition held: this is how a match takes no more
than one branch.  But the scopes may be any of the frame, and the block need not be that
of the match.  A block that stands in a branch of a match is in such a frame from the
start, and executes its first statement only.
-/

namespace Plainspoken

open List (Forall₂)
open Stepping Evaluation

/-! ## Flags around a block -/

@[simp]
theorem Flags.includes_onlyLastCondition (flags : Flags) :
    flags.includes onlyLastCondition = flags.lastCondition := by
  obtain ⟨loop, call, matching, lastCondition, expectValue⟩ := flags
  cases lastCondition <;> simp [includes, without, onlyLastCondition, empty]

namespace Frame

/-- Whether a scope of the frame is that of a match and a scope remembers that a
condition held. -/
def hasTakenBranch (frame : Frame) : Bool :=
  frame.hasFlags .onlyMatching && frame.hasFlags .onlyLastCondition

theorem sumsToFlags_branchTaken (frame : Frame) :
    frame.sumsToFlags branchTaken = frame.hasTakenBranch := by
  unfold sumsToFlags hasTakenBranch hasFlags
  rw [includes_branchTaken, (foldl_union_flags _ _).1, (foldl_union_flags _ _).2]
  cases frame.scopes with
  | nil => rfl
  | cons inner outer => simp [Flags.empty]

variable {before after : Frame}

/-- A statement does not change which scopes are those of a match. -/
theorem Extended.hasFlags_onlyMatching (extended : before.Extended after) :
    after.hasFlags .onlyMatching = before.hasFlags .onlyMatching := by
  have scopes := extended.scopes_flags
  rw [Bool.eq_iff_iff]
  constructor
  · exact hasFlags_of_forall₂ (scopes.imp fun _ _ same => by simp [same.2.1])
  · exact hasFlags_of_forall₂ (scopes.flip.imp fun _ _ same => by simp [same.2.1])

/-- What the scopes of a frame remember: the innermost one, and those around it. -/
theorem hasFlags_onlyLastCondition (frame : Frame) :
    frame.hasFlags .onlyLastCondition =
      (frame.remembers || frame.popScope.hasFlags .onlyLastCondition) := by
  unfold hasFlags remembers innermostFlags popScope
  cases frame.scopes with
  | nil => rfl
  | cons inner outer => simp

/-- A statement leaves it to the scopes around the innermost one what they remember. -/
theorem Extended.popScope_hasFlags (extended : before.Extended after) (flags : Flags) :
    after.popScope.hasFlags flags = before.popScope.hasFlags flags := by
  have scopes := extended.scopes
  unfold hasFlags Frame.popScope
  generalize before.scopes = scopesBefore at scopes
  generalize after.scopes = scopesAfter at scopes
  cases scopes with
  | none => rfl
  | innermost _ outer =>
      simp only [List.tail_cons]
      induction outer with
      | nil => rfl
      | cons completed _ ih => rw [List.any_cons, List.any_cons, completed.flags, ih]

end Frame

/-! ## Statements in order -/

/-- The statements are executed in order, each up to its end; `reached` are the machines
that they leave one after another. -/
inductive RunsThrough (maxDepth : Nat) : List Statement → Machine → List Machine → Prop where
  | nil (machine : Machine) : RunsThrough maxDepth [] machine []
  | cons {statement : Statement} {statements : List Statement} {machine between : Machine}
      {reached : List Machine} (executes : Executes maxDepth statement machine .normal between)
      (rest : RunsThrough maxDepth statements between reached) :
      RunsThrough maxDepth (statement :: statements) machine (between :: reached)

/-- The statements that a block executes, and those that it leaves out because a branch
has been taken. -/
structure RunsUpTo (maxDepth : Nat) (children : List Statement) (machine last : Machine)
    (ran skipped : List Statement) (reached : List Machine) : Prop where
  divided : children = ran ++ skipped
  runs : RunsThrough maxDepth ran machine reached
  ends : reached.getLastD machine = last
  goesOn : ∀ between ∈ reached.dropLast, between.current.hasTakenBranch = false
  skips : skipped ≠ [] → reached ≠ [] ∧ last.current.hasTakenBranch = true

theorem RunsUpTo.of_executesAll {maxDepth : Nat} {children : List Statement}
    {machine last : Machine} (executes : ExecutesAll maxDepth children machine .normal last) :
    ∃ ran skipped reached, RunsUpTo maxDepth children machine last ran skipped reached := by
  induction children generalizing machine with
  | nil =>
      obtain ⟨-, rfl⟩ := executesAll_nil_iff.mp executes
      exact ⟨[], [], [], rfl, .nil _, rfl, by simp, by simp⟩
  | cons child children ih =>
      obtain ⟨flow, between, runs, rest⟩ := executesAll_cons_iff.mp executes
      split at rest
      · next goesOn =>
        obtain ⟨rfl, untaken⟩ := goesOn
        rw [Frame.sumsToFlags_branchTaken] at untaken
        obtain ⟨ran, skipped, reached, upTo⟩ := ih rest
        refine ⟨child :: ran, skipped, between :: reached, ?_, .cons runs upTo.runs, ?_, ?_, ?_⟩
        · rw [upTo.divided, List.cons_append]
        · rw [List.getLastD_cons, upTo.ends]
        · cases reached with
          | nil => simp
          | cons next reached =>
              rw [List.dropLast_cons_cons]
              exact List.forall_mem_cons.mpr ⟨untaken, upTo.goesOn⟩
        · intro someSkipped
          exact ⟨List.cons_ne_nil _ _, (upTo.skips someSkipped).2⟩
      · next settled =>
        obtain ⟨rfl, rfl⟩ := rest
        have taken : last.current.hasTakenBranch = true := by
          rw [← Frame.sumsToFlags_branchTaken]
          simpa using settled
        refine ⟨[child], children, [last], rfl, .cons runs (.nil _), rfl, by simp, ?_⟩
        exact fun _ => ⟨List.cons_ne_nil _ _, taken⟩

namespace RunsThrough

variable {maxDepth : Nat} {statements : List Statement} {machine : Machine}
  {reached : List Machine}

theorem extended (runs : RunsThrough maxDepth statements machine reached) :
    ∀ between ∈ reached, machine.current.Extended between.current := by
  induction runs with
  | nil machine => simp
  | cons executes rest ih =>
      have first := executes.extended.current
      exact List.forall_mem_cons.mpr ⟨first, fun later member => first.trans (ih later member)⟩

/-- Statements that are neither conditionals nor loops leave it to the innermost scope
what it remembers. -/
theorem remembers_eq (runs : RunsThrough maxDepth statements machine reached)
    (keeps : ∀ statement ∈ statements, statement.keepsMemory = true) :
    ∀ between ∈ reached, between.current.remembers = machine.current.remembers := by
  induction runs with
  | nil machine => simp
  | cons executes rest ih =>
      obtain ⟨keepsFirst, keepsRest⟩ := List.forall_mem_cons.mp keeps
      have first := executes.remembers_eq keepsFirst
      refine List.forall_mem_cons.mpr ⟨first, fun later member => ?_⟩
      rw [ih keepsRest later member, first]

private theorem length_eq (runs : RunsThrough maxDepth statements machine reached) :
    reached.length = statements.length := by
  induction runs with
  | nil machine => rfl
  | cons executes rest ih => rw [List.length_cons, List.length_cons, ih]

end RunsThrough

namespace RunsUpTo

variable {maxDepth : Nat} {children ran skipped : List Statement} {machine last : Machine}
  {reached : List Machine}
  (upTo : RunsUpTo maxDepth children machine last ran skipped reached)

include upTo

theorem last_mem (someSkipped : skipped ≠ []) : last ∈ reached := by
  have someReached := (upTo.skips someSkipped).1
  rw [← upTo.ends, List.getLastD_eq_getLast?, List.getLast?_eq_getLast_of_ne_nil someReached]
  exact List.getLast_mem someReached

/-- Outside of a match nothing is left out. -/
theorem skipped_eq_nil_of_not_matching
    (outside : machine.current.hasFlags .onlyMatching = false) : skipped = [] := by
  by_contra someSkipped
  have taken := (upTo.skips someSkipped).2
  have extended := upTo.runs.extended last (upTo.last_mem someSkipped)
  rw [Frame.hasTakenBranch, extended.hasFlags_onlyMatching, outside] at taken
  cases taken

/-- Nothing is left out if no condition is remembered and none is written down. -/
theorem skipped_eq_nil_of_keepsMemory
    (forgotten : machine.current.hasFlags .onlyLastCondition = false)
    (keeps : ∀ child ∈ children, child.keepsMemory = true) : skipped = [] := by
  by_contra someSkipped
  have taken := (upTo.skips someSkipped).2
  have member := upTo.last_mem someSkipped
  have around := (upTo.runs.extended last member).popScope_hasFlags .onlyLastCondition
  have keepsRan : ∀ statement ∈ ran, statement.keepsMemory = true := by
    intro statement inRan
    exact keeps statement (by rw [upTo.divided]; exact List.mem_append_left _ inRan)
  have inside := upTo.runs.remembers_eq keepsRan last member
  rw [Frame.hasFlags_onlyLastCondition] at forgotten
  rw [Frame.hasTakenBranch, Frame.hasFlags_onlyLastCondition, around, inside, forgotten,
    Bool.and_false] at taken
  cases taken

/-- Where a branch has been taken around a block, no statement but the first is executed. -/
theorem ran_eq_take_one (matched : machine.current.hasFlags .onlyMatching = true)
    (remembered : machine.current.popScope.hasFlags .onlyLastCondition = true) :
    ran = children.take 1 := by
  have taken : ∀ between ∈ reached, between.current.hasTakenBranch = true := by
    intro between member
    have extended := upTo.runs.extended between member
    rw [Frame.hasTakenBranch, extended.hasFlags_onlyMatching, matched,
      Frame.hasFlags_onlyLastCondition, extended.popScope_hasFlags, remembered]
    simp
  -- a machine before the last one would have ended the block
  have atMostOne : reached.length ≤ 1 := by
    by_contra several
    have lengthBefore : reached.dropLast.length = reached.length - 1 := List.length_dropLast
    obtain ⟨between, member⟩ :=
      List.exists_mem_of_length_pos (show 0 < reached.dropLast.length by omega)
    have untaken := upTo.goesOn between member
    rw [taken between (List.dropLast_subset reached member)] at untaken
    cases untaken
  rw [upTo.runs.length_eq] at atMostOne
  rw [upTo.divided]
  cases ran with
  | nil =>
      have noneReached : reached = [] := List.length_eq_zero_iff.mp upTo.runs.length_eq
      have noneSkipped : skipped = [] := by
        by_contra someSkipped
        exact (upTo.skips someSkipped).1 noneReached
      rw [noneSkipped]
      rfl
  | cons first rest =>
      have noneLeft : rest = [] := List.length_eq_zero_iff.mp (by simpa using atMostOne)
      rw [noneLeft]
      rfl

end RunsUpTo

/-! ## Main statement -/

/-- A block that ends normally has executed its statements in order, each up to its end, in
a scope that it closes afterwards.  It leaves out those after the first statement behind
which a scope of the frame is that of a match and one remembers that a condition held, if
there are any.  So it leaves out nothing outside of a match, nor where no scope remembers a
condition and no statement of the block is a conditional or a loop; and in a frame in which
a branch has been taken it executes its first statement only. -/
theorem blocks_run_to_the_end_unless_branch_taken {maxDepth : Nat} {span : Span}
    {children : List Statement} {machine final : Machine}
    (executes : Executes maxDepth (.compound span children) machine .normal final) :
    ∃ ran skipped reached last,
      children = ran ++ skipped ∧
      RunsThrough maxDepth ran ((machine.entered span).pushScope .empty) reached ∧
      reached.getLastD ((machine.entered span).pushScope .empty) = last ∧
      last.popScope.left = final ∧
      (∀ between ∈ reached.dropLast, between.current.hasTakenBranch = false) ∧
      (skipped ≠ [] → reached ≠ [] ∧ last.current.hasTakenBranch = true) ∧
      (machine.current.hasFlags .onlyMatching = false → skipped = []) ∧
      (machine.current.hasFlags .onlyLastCondition = false →
        (∀ child ∈ children, child.keepsMemory = true) → skipped = []) ∧
      (machine.current.hasTakenBranch = true → ran = children.take 1) := by
  obtain ⟨-, last, runs, closes⟩ := executes_compound_iff.mp executes
  obtain ⟨ran, skipped, reached, upTo⟩ := RunsUpTo.of_executesAll runs
  have opened (flags : Flags) (absent : Flags.empty.includes flags = false) :
      ((machine.entered span).pushScope .empty).current.hasFlags flags =
        machine.current.hasFlags flags := by
    change (Flags.empty.includes flags || machine.current.hasFlags flags) = _
    rw [absent, Bool.false_or]
  refine ⟨ran, skipped, reached, last, upTo.divided, upTo.runs, upTo.ends, closes, upTo.goesOn,
    upTo.skips, ?_, ?_, ?_⟩
  · intro outside
    exact upTo.skipped_eq_nil_of_not_matching ((opened _ rfl).trans outside)
  · intro forgotten
    exact upTo.skipped_eq_nil_of_keepsMemory ((opened _ rfl).trans forgotten)
  · intro taken
    obtain ⟨matched, remembered⟩ := (Bool.and_eq_true _ _).mp taken
    exact upTo.ran_eq_take_one ((opened _ rfl).trans matched) remembered

/-- A block of two statements in the branch of a match, in a program that has just started.
Its first statement prints a line, and the second one is left out. -/
theorem block_in_branch_skips_second_statement :
    let place : Span := .firstCharacter
    let prints (line : String) : Statement :=
      .expression (.call place "Print" [.literal place (.text line)])
    let taken : Machine := (Machine.initial.openMatch place .nothing place).setFlags
      .onlyLastCondition
    taken.current.hasTakenBranch = true ∧
    ∃ final,
      Executes 9 (.compound place [prints "first", prints "second"]) taken .normal final ∧
      final.emitted.size = 1 ∧
      ∃ ran skipped reached,
        [prints "first", prints "second"] = ran ++ skipped ∧
        RunsThrough 9 ran ((taken.entered place).pushScope .empty) reached ∧
        ran = [prints "first"] := by
  intro place prints taken
  have executes : Executes 9 (.compound place [prints "first", prints "second"]) taken .normal
      _ := ⟨9, rfl⟩
  obtain ⟨ran, skipped, reached, -, divided, runs, -, -, -, -, -, -, onlyFirst⟩ :=
    blocks_run_to_the_end_unless_branch_taken executes
  exact ⟨rfl, _, executes, rfl, ran, skipped, reached, divided, runs, onlyFirst rfl⟩

end Plainspoken
