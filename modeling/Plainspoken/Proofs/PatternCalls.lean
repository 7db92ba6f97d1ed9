import Plainspoken.Proofs.SilencedMatches

/-!
# Calls of patterns

The body of a pattern is a block of branches like that of a match, and runs in a frame
of its own whose only other scope is that of the pattern.  So no condition is remembered
from elsewhere, and the first branch whose condition holds is selected.  Its statement is
the last one that runs if the scope of the branches still remembers then that the
condition held, for which it is enough that the statement is neither a conditional nor a
loop: whatever its expressions call runs in other frames.
-/

namespace Plainspoken

open Stepping Evaluation

/-! ## Calls -/

namespace Machine

/-- The machine on which the branches of a pattern run: its frame is on top, with the
scope of the block in it. -/
def openPattern (machine : Machine) (signature : PatternSignature) (span : Span)
    (value : Value) (site : Option Site) (blockSpan : Span) : Machine :=
  (((machine.mark span).pushFrame (patternFrame signature span value site)).entered
    blockSpan).pushScope .empty

def closePattern (machine : Machine) : Machine :=
  machine.popScope.left.popFrame

theorem openPattern_inMatch (machine : Machine) (signature : PatternSignature) (span : Span)
    (value : Value) (site : Option Site) (blockSpan : Span) :
    (machine.openPattern signature span value site blockSpan).current.InMatch ∧
      (machine.openPattern signature span value site blockSpan).current.remembers = false := by
  refine ⟨⟨.empty, (patternFrame signature span value site).scopes, rfl, ?_, ?_⟩, rfl⟩
  · intro scope member
    rw [List.mem_singleton.mp member]
    rfl
  · exact ⟨_, List.mem_singleton_self _, rfl⟩

end Machine

section Calls

variable {maxDepth : Nat} {machine after : Machine} {value : Value} {span : Span}
  {name : String} {argument : Expression} {signature : PatternSignature} {body : Statement}

/-- A call of a pattern evaluates the argument, casts it to the type of the parameter, runs
the body in a frame of its own, and takes the frame off. -/
theorem evaluates_call_pattern_iff
    (resolves : resolve machine name 1 = .ok (some ⟨.pattern signature body, none⟩)) :
    Evaluates maxDepth (.call span name [argument]) machine value after ↔
      machine.depth + 1 < maxDepth ∧ ∃ held between flow last,
        Yields maxDepth argument (machine.entered span) held between ∧
        Executes maxDepth body ((between.mark span).pushFrame (patternFrame signature span
          (held.cast signature.parameter.type)
          ((machine.entered span).argumentSite? argument))) flow last ∧
        value = .nothing ∧ after = last.popFrame.concluded .nothing := by
  rw [← Watching.resolve_entered machine (machine.depth + 1) span] at resolves
  have node (fuel : Nat) {closed : Machine} :
      (expressionNode (evaluate maxDepth fuel) (execute maxDepth fuel)
        (.call span name [argument]) : Action Value) (machine.entered span) =
          .finished value closed ↔
        ∃ held between flow last,
          (usedValue (evaluate maxDepth fuel) argument : Action Value) (machine.entered span) =
            .finished held between ∧
          (execute maxDepth fuel body : Action Flow)
            ((between.mark span).pushFrame (patternFrame signature span
              (held.cast signature.parameter.type)
              ((machine.entered span).argumentSite? argument))) = .finished flow last ∧
          value = .nothing ∧ closed = last.popFrame := by
    change Action.andThen (ofExcept (resolve (machine.entered span) name 1)) _
      (machine.entered span) = _ ↔ _
    rw [Machine.entered, resolves]
    change (callPattern (evaluate maxDepth fuel) (execute maxDepth fuel) signature body none
      argument span : Action Value) (machine.entered span) = _ ↔ _
    simp only [callPattern, Action.finished_bind, Action.finished_read, Action.finished_update,
      Action.finished_pure]
    constructor
    · rintro ⟨_, _, ⟨rfl, rfl⟩, held, between, yields, _, _, rfl, _, _, rfl, flow, last, runs, _,
        _, rfl, rfl, rfl⟩
      exact ⟨held, between, flow, last, yields, runs, rfl, rfl⟩
    · rintro ⟨held, between, flow, last, yields, runs, rfl, rfl⟩
      exact ⟨_, _, ⟨rfl, rfl⟩, held, between, yields, (), _, rfl, (), _, rfl, flow, last, runs,
        (), _, rfl, rfl, rfl⟩
  rw [evaluates_iff]
  refine and_congr_right fun _ => ⟨?_, ?_⟩
  · rintro ⟨closed, ⟨fuel, finished⟩, rfl⟩
    obtain ⟨held, between, flow, last, yields, runs, rfl, rfl⟩ := (node fuel).mp finished
    exact ⟨held, between, flow, last, ⟨fuel, yields⟩, ⟨fuel, runs⟩, rfl, rfl⟩
  · rintro ⟨held, between, flow, last, ⟨less, yields⟩, ⟨more, runs⟩, rfl, rfl⟩
    have yields' := Finishes.of_le (usedValue_approximates maxDepth · argument) yields
      (Nat.le_max_left less more)
    have runs' := Finishes.of_le (execute_approximates maxDepth · body) runs
      (Nat.le_max_right less more)
    exact ⟨_, ⟨max less more, (node _).mpr ⟨held, between, flow, last, yields', runs', rfl, rfl⟩⟩,
      rfl⟩

end Calls

/-! ## Branches that keep the memory -/

section Branches

variable {maxDepth : Nat} {machine selected last : Machine} {flow : Flow}
  {branches later : List Branch} {chosen : Branch}

theorem Selects.divided (selects : Selects maxDepth branches machine chosen later selected) :
    ∃ earlier, branches = earlier ++ chosen :: later := by
  induction selects with
  | here shallow holds => exact ⟨[], rfl⟩
  | @next branch _ _ _ _ _ _ shallow fails rest ih =>
      obtain ⟨earlier, rfl⟩ := ih
      exact ⟨branch :: earlier, rfl⟩

/-- In the scope of a match the statement of a branch ends normally. -/
theorem Executes.eq_normal_of_inMatch {statement : Statement}
    (executes : Executes maxDepth statement machine flow last)
    (inMatch : machine.current.InMatch) : flow = .normal := by
  obtain ⟨fuel, finished⟩ := executes
  have permits := execute_contained maxDepth fuel statement machine flow last finished
  obtain ⟨inner, outer, scopes, -, scope, member, matched⟩ := inMatch
  refine permits.eq_normal ?_
  rw [Frame.hasFlags, scopes, List.any_cons]
  simp only [Flags.includes_onlyMatching]
  rw [List.any_eq_true.mpr ⟨scope, member, matched⟩, Bool.or_true]

/-- After a selected statement that keeps the memory nothing else runs. -/
theorem runsSelected_iff (keeps : chosen.statement.keepsMemory = true)
    (inMatch : selected.current.InMatch) :
    RunsSelected maxDepth chosen later selected flow last ↔
      flow = .normal ∧ ∃ after,
        Executes maxDepth chosen.statement (selected.setFlags .onlyLastCondition) .normal after ∧
        last = after.left := by
  have remembered {inner : Flow} {after : Machine}
      (runs : Executes maxDepth chosen.statement (selected.setFlags .onlyLastCondition) inner
        after) : after.current.remembers = true :=
    (runs.remembers_eq keeps).trans inMatch.remembers_setLastCondition
  constructor
  · rintro ⟨inner, after, runs, rest⟩
    obtain rfl := runs.eq_normal_of_inMatch (inMatch.modifyInnermost _)
    rw [if_neg (by simp [remembered runs])] at rest
    obtain ⟨rfl, rfl⟩ := rest
    exact ⟨rfl, after, runs, rfl⟩
  · rintro ⟨rfl, after, runs, rfl⟩
    exact ⟨.normal, after, runs, by rw [if_neg (by simp [remembered runs])]; exact ⟨rfl, rfl⟩⟩

/-- Up to the selected branch, the branches pass through the machines that they pass
through where there are none behind it. -/
theorem Selects.traced_block (selects : Selects maxDepth branches machine chosen later selected)
    (inMatch : machine.current.InMatch) (forgotten : machine.current.remembers = false)
    (keeps : chosen.statement.keepsMemory = true) :
    ∃ earlier, branches = earlier ++ chosen :: later ∧ ∀ fuel,
      (block (execute maxDepth fuel) (branches.map Branch.conditional) : Tracing Flow) machine =
        (block (execute maxDepth fuel) ((earlier ++ [chosen]).map Branch.conditional) :
          Tracing Flow) machine := by
  induction selects with
  | here shallow holds =>
      refine ⟨[], rfl, fun fuel => Tracing.bind_eq_bind rfl fun flow between finished => ?_⟩
      rw [Tracing.action_execute] at finished
      obtain ⟨-, tries⟩ := executes_branch_iff.mp ⟨fuel, finished⟩
      cases tries with
      | refused fails =>
          obtain ⟨contradiction, -⟩ :=
            Finishes.unique (condition_approximates maxDepth · _) holds fails
          cases contradiction
      | @taken decided after flow holds' executes =>
          have decidedInMatch := (inMatch_decided inMatch holds').1
          have selectedInMatch := decidedInMatch.modifyInnermost (·.setFlags .onlyLastCondition)
          obtain rfl := executes.eq_normal_of_inMatch selectedInMatch
          have remembered := (executes.remembers_eq keeps).trans
            decidedInMatch.remembers_setLastCondition
          have taken : after.left.current.sumsToFlags branchTaken = true :=
            (selectedInMatch.of_extended executes.extended.current).sumsToFlags.trans remembered
          refine Tracing.bind_eq_bind rfl fun sums _ reads => ?_
          cases reads
          simp only [taken]
          rfl
  | @next branch chosen branches later machine between selected shallow fails rest ih =>
      obtain ⟨betweenInMatch, same⟩ := inMatch_decided inMatch fails
      have betweenForgotten : between.current.remembers = false := same.trans forgotten
      obtain ⟨earlier, divided, traced⟩ := ih betweenInMatch betweenForgotten keeps
      refine ⟨branch :: earlier, by rw [divided, List.cons_append], fun fuel => ?_⟩
      refine Tracing.bind_eq_bind rfl fun flow reached finished => ?_
      rw [Tracing.action_execute] at finished
      obtain ⟨-, tries⟩ := executes_branch_iff.mp ⟨fuel, finished⟩
      cases tries with
      | taken holds executes =>
          obtain ⟨contradiction, -⟩ :=
            Finishes.unique (condition_approximates maxDepth · _) fails holds
          cases contradiction
      | refused fails' =>
          obtain ⟨-, rfl⟩ := Finishes.unique (condition_approximates maxDepth · _) fails fails'
          rw [unsetLastCondition_eq betweenForgotten]
          have untaken : between.left.current.sumsToFlags branchTaken = false :=
            betweenInMatch.sumsToFlags.trans betweenForgotten
          refine Tracing.bind_eq_bind rfl fun sums _ reads => ?_
          cases reads
          simp only [untaken, Bool.false_eq_true, if_false]
          exact traced fuel

end Branches

/-! ## Main statement -/

/-- A call of a pattern whose branches execute neither conditionals nor loops casts the
argument to the type of the parameter, opens a frame with it under the reserved name and as
the parameter, evaluates the conditions in order up to the first one that holds, executes the
statement of that branch, closes the frame and yields nothing.  The branches behind it have
no part in this: the block passes through the same machines as if they were not there. -/
theorem pattern_calls_run_first_true_branch {maxDepth : Nat} {machine : Machine} {span : Span}
    {name : String} {argument : Expression} {signature : PatternSignature}
    {blockSpan defaultSpan : Span} {branches : List Branch} {default : Statement}
    (resolves : resolve machine name 1 = .ok (some ⟨.pattern signature (.compound blockSpan
      ((branches ++ [Branch.otherwise defaultSpan default]).map Branch.conditional)), none⟩))
    (keeps : ∀ branch ∈ branches ++ [.otherwise defaultSpan default],
      branch.statement.keepsMemory = true) :
    (∀ value after, Evaluates maxDepth (.call span name [argument]) machine value after ↔
      machine.depth + 1 < maxDepth ∧ ∃ held between chosen later selected last,
        Yields maxDepth argument (machine.entered span) held between ∧
        between.depth + 1 < maxDepth ∧
        Selects maxDepth (branches ++ [.otherwise defaultSpan default])
          (between.openPattern signature span (held.cast signature.parameter.type)
            ((machine.entered span).argumentSite? argument) blockSpan)
          chosen later selected ∧
        Executes maxDepth chosen.statement (selected.setFlags .onlyLastCondition) .normal last ∧
        value = .nothing ∧ after = last.left.closePattern.concluded .nothing) ∧
    ∀ {between : Machine} {value : Value} {site : Option Site} {chosen : Branch}
      {later : List Branch} {selected : Machine},
      Selects maxDepth (branches ++ [.otherwise defaultSpan default])
        (between.openPattern signature span value site blockSpan) chosen later selected →
      ∃ earlier, branches ++ [.otherwise defaultSpan default] = earlier ++ chosen :: later ∧
        ∀ fuel,
          (block (execute maxDepth fuel) ((branches ++ [Branch.otherwise defaultSpan default]).map
              Branch.conditional) : Tracing Flow)
            (between.openPattern signature span value site blockSpan) =
          (block (execute maxDepth fuel) ((earlier ++ [chosen]).map Branch.conditional) :
              Tracing Flow)
            (between.openPattern signature span value site blockSpan) := by
  have keepsChosen {start selected : Machine} {chosen : Branch} {later : List Branch}
      (selects : Selects maxDepth (branches ++ [.otherwise defaultSpan default]) start chosen
        later selected) : chosen.statement.keepsMemory = true := by
    obtain ⟨earlier, divided⟩ := selects.divided
    exact keeps chosen (by rw [divided]; simp)
  refine ⟨fun value after => ?_, ?_⟩
  · rw [evaluates_call_pattern_iff resolves]
    refine and_congr_right fun _ => exists_congr fun held => exists_congr fun between => ?_
    obtain ⟨inMatch, forgotten⟩ := between.openPattern_inMatch signature span
      (held.cast signature.parameter.type) ((machine.entered span).argumentSite? argument)
      blockSpan
    constructor
    · rintro ⟨flow, last, yields, executes, rfl, rfl⟩
      obtain ⟨shallow, closed, runs, rfl⟩ := executes_compound_iff.mp executes
      obtain ⟨chosen, later, selected, selects, runs⟩ :=
        (executesAll_branches_iff inMatch forgotten).mp runs
      obtain ⟨rfl, last, executesChosen, rfl⟩ :=
        (runsSelected_iff (keepsChosen selects) (selects.inMatch inMatch)).mp runs
      exact ⟨chosen, later, selected, last, yields, shallow, selects, executesChosen, rfl, rfl⟩
    · rintro ⟨chosen, later, selected, last, yields, shallow, selects, runs, rfl, rfl⟩
      have runsSelected : RunsSelected maxDepth chosen later selected .normal last.left :=
        (runsSelected_iff (keepsChosen selects) (selects.inMatch inMatch)).mpr
          ⟨rfl, last, runs, rfl⟩
      have executesAll := (executesAll_branches_iff inMatch forgotten).mpr
        ⟨chosen, later, selected, selects, runsSelected⟩
      exact ⟨.normal, last.left.popScope.left, yields,
        executes_compound_iff.mpr ⟨shallow, last.left, executesAll, rfl⟩, rfl, rfl⟩
  · intro between value site chosen later selected selects
    obtain ⟨inMatch, forgotten⟩ :=
      between.openPattern_inMatch signature span value site blockSpan
    exact selects.traced_block inMatch forgotten (keepsChosen selects)

/-- A call of a pattern in a program that has just declared it.  The argument does not hold,
so the second branch is taken. -/
theorem call_of_pattern_takes_second_branch :
    let place : Span := .firstCharacter
    let prints (line : String) : Statement :=
      .expression (.call place "Print" [.literal place (.text line)])
    let signature : PatternSignature := ⟨place, "Tell", false, ⟨place, false, .fact, "fact"⟩⟩
    let branches : List Branch :=
      [⟨place, .identifier place subjectName, prints "first"⟩,
        ⟨place, .unary place .not (.identifier place "fact"), prints "second"⟩]
    let all : List Branch := branches ++ [.otherwise place (.empty place)]
    let body : Statement := .compound place (all.map Branch.conditional)
    let tells : Expression := .call place "Tell" [.literal place (.text "")]
    ∃ declared, Executes 20 (.pattern signature body) Machine.initial .normal declared ∧
      resolve declared "Tell" 1 = .ok (some ⟨.pattern signature body, none⟩) ∧
      (∀ branch ∈ all, branch.statement.keepsMemory = true) ∧
      ∃ after, Evaluates 20 tells declared .nothing after ∧
        after.emitted = #[.line "second"] ∧
        ∃ held between chosen later selected last,
          Yields 20 (.literal place (.text "")) (declared.entered place) held between ∧
          Selects 20 all (between.openPattern signature place (held.cast .fact) none place)
            chosen later selected ∧
          Executes 20 chosen.statement (selected.setFlags .onlyLastCondition) .normal last ∧
          after = last.left.closePattern.concluded .nothing := by
  intro place prints signature branches all body tells
  have keeps : ∀ branch ∈ all, branch.statement.keepsMemory = true := by
    intro branch member
    simp only [all, branches, List.cons_append, List.nil_append, List.mem_cons,
      List.not_mem_nil, or_false] at member
    rcases member with rfl | rfl | rfl <;> rfl
  have runs {declared after : Machine}
      (resolves : resolve declared "Tell" 1 = .ok (some ⟨.pattern signature body, none⟩))
      (evaluates : Evaluates 20 tells declared .nothing after) :
      ∃ held between chosen later selected last,
        Yields 20 (.literal place (.text "")) (declared.entered place) held between ∧
        Selects 20 all (between.openPattern signature place (held.cast .fact) none place)
          chosen later selected ∧
        Executes 20 chosen.statement (selected.setFlags .onlyLastCondition) .normal last ∧
        after = last.left.closePattern.concluded .nothing := by
    obtain ⟨-, held, between, chosen, later, selected, last, yields, -, selects, executes, -,
      ends⟩ := ((pattern_calls_run_first_true_branch resolves keeps).1 _ _).mp evaluates
    exact ⟨held, between, chosen, later, selected, last, yields, selects, executes, ends⟩
  exact ⟨_, ⟨20, rfl⟩, rfl, keeps, _, ⟨20, rfl⟩, rfl, runs rfl ⟨20, rfl⟩⟩

end Plainspoken
