import Plainspoken.Proofs.Fuel
import Plainspoken.Proofs.Transcripts

/-!
# Runs and what came before them

A session that is only built, run and reset has no memory.  A run leaves frames open when
it fails, and levels counted, but the session takes none of it over: between requests it
rests on a fresh machine, and only what has been emitted grows.

A run does not look at what has been emitted.  So it does what it would do in a fresh
session in which nothing but the last source has been built.
-/

namespace Plainspoken

open Stepping Evaluation

namespace Machine

theorem preceded_initial (machine : Machine) :
    initial.preceded machine.emitted = machine.reset := by
  simp [preceded, initial, reset]

theorem preceded_unwind (machine : Machine) (earlier : Transcript) (cause : RuntimeCause) :
    (machine.preceded earlier).unwind cause = (machine.unwind cause).preceded earlier := by
  rw [unwind_eq, unwind_eq]
  simp [preceded, failureReport, current]

end Machine

namespace Session

/-- The session with something emitted before all else. -/
def preceded (session : Session) (earlier : Transcript) : Session :=
  { session with machine := session.machine.preceded earlier }

/-- A run goes on as it would without earlier emissions. -/
theorem run?_preceded (session : Session) (earlier : Transcript) (fuel : Nat) :
    (session.preceded earlier).run? fuel =
      (session.run? fuel).map fun (result, after) => (result, after.preceded earlier) := by
  obtain ⟨limits, held, machine⟩ := session
  cases held with
  | none => rfl
  | some program =>
      have same := (execute_reports limits.maxDepth fuel program).preceded machine earlier
      unfold run? preceded
      dsimp only
      rw [same]
      cases (execute limits.maxDepth fuel program : Action Flow) machine with
      | finished flow after => rfl
      | halted reason after =>
          cases reason with
          | quit => rfl
          | failed cause =>
              dsimp only [Outcome.mapMachine, Option.map_some]
              rw [Machine.preceded_unwind]
              rfl
      | exhausted => rfl

/-- A run that ends does so with more fuel as well. -/
theorem run?_of_le {session after : Session} {less more : Nat}
    {result : Except RuntimeError Unit} (enough : less ≤ more)
    (runs : session.run? less = some (result, after)) :
    session.run? more = some (result, after) := by
  obtain ⟨limits, held, machine⟩ := session
  cases held with
  | none => exact runs
  | some program =>
      have approximates := approximating_of_le
        (fun fuel => execute_approximates limits.maxDepth fuel program) enough machine
      unfold run? at runs ⊢
      dsimp only at runs ⊢
      rcases approximates with exhausted | same
      · rw [exhausted] at runs
        cases runs
      · rw [← same]
        exact runs

/-- The sessions that building, running and resetting lead to, with the source that was
built last. -/
inductive Served (limits : Limits) : Option String → Session → Prop where
  | start : Served limits none (.start limits)
  | build {last : Option String} {session : Session} (served : Served limits last session)
      (source : String) : Served limits (some source) (session.build source).2
  | reset {last : Option String} {session : Session} (served : Served limits last session) :
      Served limits last session.reset
  | run {last : Option String} {session after : Session} {fuel : Nat}
      {result : Except RuntimeError Unit} (served : Served limits last session)
      (runs : session.run? fuel = some (result, after)) : Served limits last after

/-- The program of a source, if it can be built. -/
def programOf? (limits : Limits) (source : String) : Option Statement :=
  (parse limits source).toOption

/-- A fresh session in which nothing but one source has been built. -/
def fresh (limits : Limits) (last : Option String) : Session :=
  ⟨limits, last.bind (programOf? limits), .initial⟩

/-- The session differs from a fresh one by what has been emitted. -/
structure Rests (limits : Limits) (last : Option String) (session : Session) : Prop where
  limits_eq : session.limits = limits
  program_eq : session.program = last.bind (programOf? limits)
  machine_eq : session.machine = session.machine.reset

namespace Rests

variable {limits : Limits} {last : Option String} {session : Session}
  (rests : Rests limits last session)

include rests

theorem build (source : String) : Rests limits (some source) (session.build source).2 := by
  unfold Session.build
  rw [rests.limits_eq]
  cases parsed : parse limits source with
  | ok program =>
      refine ⟨rfl, ?_, rests.machine_eq⟩
      rw [Option.bind_some, programOf?, parsed]
      rfl
  | error error =>
      refine ⟨rfl, ?_, ?_⟩
      · rw [Option.bind_some, programOf?, parsed]
        rfl
      · change session.machine.reportBuildError error = _
        rw [rests.machine_eq]
        rfl

theorem run {after : Session} {fuel : Nat} {result : Except RuntimeError Unit}
    (runs : session.run? fuel = some (result, after)) : Rests limits last after := by
  rcases run?_resets runs with rfl | ⟨machine, rfl⟩
  · exact rests
  · exact ⟨rests.limits_eq, rests.program_eq, rfl⟩

theorem eq_fresh : session = (fresh limits last).preceded session.machine.emitted := by
  rw [preceded, fresh, session.machine.preceded_initial, ← rests.machine_eq,
    ← rests.program_eq, ← rests.limits_eq]

end Rests

/-- Whatever has been built and run, and however it ended, a session rests on a fresh
machine. -/
theorem Served.rests {limits : Limits} {last : Option String} {session : Session}
    (served : Served limits last session) : Rests limits last session := by
  induction served with
  | start => exact ⟨rfl, rfl, rfl⟩
  | build served source ih => exact ih.build source
  | reset served ih => exact ⟨ih.limits_eq, ih.program_eq, rfl⟩
  | run served runs ih => exact ih.run runs

end Session

/-! ## Main statement -/

/-- After any sequence of builds, runs and resets the stack, the depth and the value
evaluated last are those of a fresh session.  A run does what it does in a fresh session
in which only the last source has been built, and adds the same lines and reports to the
transcript; any fuel that suffices gives the same result.  If the last source could not be
built there is nothing to do. -/
theorem runs_are_independent_of_history {limits : Limits} {last : Option String}
    {session : Session} (served : Session.Served limits last session) :
    (session.machine.stack = (Session.start limits).machine.stack ∧
      session.machine.depth = (Session.start limits).machine.depth ∧
      session.machine.lastValue = (Session.start limits).machine.lastValue) ∧
    (∀ fuel, session.run? fuel =
      ((Session.fresh limits last).run? fuel).map fun (result, after) =>
        (result, after.preceded session.machine.emitted)) ∧
    (∀ less more result after, less ≤ more →
      (Session.fresh limits last).run? less = some (result, after) →
        (Session.fresh limits last).run? more = some (result, after)) ∧
    (∀ source error, last = some source → parse limits source = .error error →
      ∀ fuel, session.run? fuel = some (.ok (), session)) := by
  have rests := served.rests
  refine ⟨?_, ?_, ?_, ?_⟩
  · rw [rests.machine_eq]
    exact ⟨rfl, rfl, rfl⟩
  · intro fuel
    rw [← Session.run?_preceded, ← rests.eq_fresh]
  · intro less more result after enough runs
    exact Session.run?_of_le enough runs
  · rintro source error rfl refused fuel
    have unbuilt : session.program = none := by
      rw [rests.program_eq, Option.bind_some, Session.programOf?, refused]
      rfl
    rw [Session.run?, unbuilt]

/-- A program fails in a call, fails again in the same way when it is run once more, and
is gone after a source that cannot be built. -/
theorem failing_program_fails_the_same_way_again :
    let source := "FUNCTION f RETURNS FACT x; CALL f NOW;"
    let faulty := "FACT a IS ;"
    let built := ((Session.start .standard).build source).2
    ∃ result first second, built.run? 20 = some (result, first) ∧
      first.machine.emitted.errorKinds = [.undefinedVariable, .stackTrace, .stackTrace] ∧
      first.machine.depth = 0 ∧ first.run? 20 = some (result, second) ∧
      second.machine.emitted = first.machine.emitted ++ first.machine.emitted ∧
      (first.build faulty).2.run? 20 = some (.ok (), (first.build faulty).2) := by
  intro source faulty built
  have builtServed : Session.Served .standard (some source) built := .build .start source
  have ends : (built.run? 20).map (fun ended => ended.2.machine.emitted.errorKinds) =
      some [.undefinedVariable, .stackTrace, .stackTrace] := by
    decide +kernel
  have nothingEmitted : built.machine.emitted = #[] := by decide +kernel
  have refused : (Session.programOf? .standard faulty).isNone = true := by decide +kernel
  obtain ⟨⟨result, first⟩, runs, kinds⟩ := Option.map_eq_some_iff.mp ends
  have firstServed : Session.Served .standard (some source) first := .run builtServed runs
  obtain ⟨-, builtRuns, -, -⟩ := runs_are_independent_of_history builtServed
  obtain ⟨⟨-, depth, -⟩, firstRuns, -, -⟩ := runs_are_independent_of_history firstServed
  -- Both runs are the run of a fresh session, with other emissions in front.
  have mapped := runs
  rw [builtRuns 20] at mapped
  obtain ⟨⟨_, after⟩, freshRuns, same⟩ := Option.map_eq_some_iff.mp mapped
  obtain ⟨rfl, isFirst⟩ := Prod.mk.inj same
  have emitted : first.machine.emitted = after.machine.emitted := by
    rw [← isFirst, nothingEmitted]
    exact Array.empty_append
  have again := firstRuns 20
  rw [freshRuns] at again
  refine ⟨_, first, _, runs, kinds, depth, again, ?_, ?_⟩
  · change first.machine.emitted ++ after.machine.emitted = _
    rw [← emitted]
  · cases parsed : parse .standard faulty with
    | ok program =>
        rw [Session.programOf?, parsed] at refused
        cases refused
    | error error =>
        obtain ⟨-, -, -, unbuilt⟩ := runs_are_independent_of_history (firstServed.build faulty)
        exact unbuilt faulty error rfl parsed 20

end Plainspoken
