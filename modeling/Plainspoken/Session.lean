import Plainspoken.Evaluation.Statement
import Plainspoken.Grammar.Statement

/-!
# Sessions

A session holds the limits, the program built last and the machine it runs on.
Building a source replaces the program.  Running the program starts from the
machine as it is and ends with a fresh one; a failure is reported together with
the frames that were open.  Statements and expressions may also be performed
one at a time on the live machine, which then keeps whatever they leave.

Whatever runs takes an amount of fuel, and has no result when the fuel does not
suffice.
-/

namespace Plainspoken

/-- Fuel enough for every run that ends in the lifetime of its machine,
`2 ^ 62`. -/
def ampleFuel : Nat := 0x4000000000000000

namespace Machine

def reportBuildError (machine : Machine) (error : BuildError) : Machine :=
  machine.emit (.event (.error error.kind error.span error.arguments error.buffered))

def reportRuntimeError (machine : Machine) (error : RuntimeError) : Machine :=
  machine.emit (.event (.error error.cause.kind error.span error.cause.arguments ""))

def traceLine (frame : Frame) : Emission :=
  .event (.error .stackTrace frame.span [.text frame.name] "")

/-- Reports the open frames, the innermost first. -/
def reportFrames (machine : Machine) : Machine :=
  machine.stack.frames.foldl (fun machine frame => machine.emit (traceLine frame)) machine

/-- A failure at the place that the current frame has reached. -/
def locate (machine : Machine) (cause : RuntimeCause) : RuntimeError :=
  ⟨cause, machine.current.span⟩

/-- Reports a failure and the frames that it leaves open. -/
def unwind (machine : Machine) (cause : RuntimeCause) : Machine :=
  (machine.reportRuntimeError (machine.locate cause)).reportFrames

/-- Gives away what has been emitted and starts a new transcript. -/
def takeEmitted (machine : Machine) : Transcript × Machine :=
  (machine.emitted, { machine with emitted := #[] })

end Machine

/-- What an interpreter holds between requests. -/
structure Session where
  limits : Limits
  program : Option Statement
  machine : Machine

namespace Session

def start (limits : Limits) : Session :=
  ⟨limits, none, .initial⟩

/-- Builds a program from a source.  A failure is reported and leaves the
session without a program. -/
def build (session : Session) (source : String) : Except BuildError Unit × Session :=
  match parse session.limits source with
  | .ok program => (.ok (), { session with program := some program })
  | .error error =>
      (.error error,
        { session with program := none, machine := session.machine.reportBuildError error })

/-- Forgets everything but the limits, the program and what has been emitted. -/
def reset (session : Session) : Session :=
  { session with machine := session.machine.reset }

/-- Runs the program; without one there is nothing to do.  A run that quits
succeeds. -/
def run? (fuel : Nat) (session : Session) : Option (Except RuntimeError Unit × Session) :=
  match session.program with
  | none => some (.ok (), session)
  | some program =>
      let ⟨limits, held, machine⟩ := session
      match (execute limits.maxDepth fuel program : Action Flow) machine with
      | .finished _ machine | .halted .quit machine =>
          some (.ok (), ⟨limits, held, machine.reset⟩)
      | .halted (.failed cause) machine =>
          some (.error (machine.locate cause), ⟨limits, held, (machine.unwind cause).reset⟩)
      | .exhausted => none

/-- Builds a program and runs it if it could be built.  The result tells
whether both succeeded. -/
def buildAndRun? (fuel : Nat) (session : Session) (source : String) :
    Option (Bool × Session) :=
  match session.build source with
  | (.error _, session) => some (false, session)
  | (.ok (), session) =>
      (session.run? fuel).map fun (result, session) => (result.isOk, session)

/-- How a list of statements was performed: the ways in which control left
those that were completed, and the halt that kept the next one from it. -/
structure Performance where
  flows : List Flow
  halt : Option Halt

/-- Performs statements on a machine up to the first halt. -/
def performOn? (maxDepth fuel : Nat) :
    List Statement → Machine → Option (Performance × Machine)
  | [], machine => some (⟨[], none⟩, machine)
  | statement :: statements, machine =>
      match (execute maxDepth fuel statement : Action Flow) machine with
      | .finished flow machine =>
          (performOn? maxDepth fuel statements machine).map fun (performance, machine) =>
            ({ performance with flows := flow :: performance.flows }, machine)
      | .halted halt machine => some (⟨[], some halt⟩, machine)
      | .exhausted => none

def topLevel : Statement → List Statement
  | .compound _ children => children
  | statement => [statement]

/-- Performs the statements of a source on the live machine, outside of any
block, so that what they declare stays.  A source that cannot be read is not
reported. -/
def perform? (fuel : Nat) (session : Session) (source : String) :
    Option (Except BuildError Performance × Session) :=
  match parse session.limits source with
  | .error error => some (.error error, session)
  | .ok program =>
      let ⟨limits, held, machine⟩ := session
      (performOn? limits.maxDepth fuel (topLevel program) machine).map
        fun (performance, machine) => (.ok performance, ⟨limits, held, machine⟩)

/-- The expression that a program consists of. -/
def soleExpression? (program : Statement) : Option Expression :=
  match topLevel program with
  | [.expression content] => some content
  | _ => none

def evaluate? (fuel : Nat) (session : Session) (expression : Expression) :
    Option (Except Halt Value × Session) :=
  let ⟨limits, held, machine⟩ := session
  match (evaluate limits.maxDepth fuel expression : Action Value) machine with
  | .finished value machine => some (.ok value, ⟨limits, held, machine⟩)
  | .halted halt machine => some (.error halt, ⟨limits, held, machine⟩)
  | .exhausted => none

/-- Gives away what has been emitted since the last time. -/
def takeEmitted (session : Session) : Transcript × Session :=
  let (transcript, machine) := session.machine.takeEmitted
  (transcript, { session with machine := machine })

end Session

/-- What running a source under given limits emits. -/
def transcriptOf? (fuel : Nat) (limits : Limits) (source : String) : Option Transcript :=
  ((Session.start limits).buildAndRun? fuel source).map fun (_, session) =>
    session.machine.emitted

end Plainspoken
