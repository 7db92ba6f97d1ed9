import Plainspoken.Diagnostic.Argument
import Plainspoken.Diagnostic.Kind

/-!
# Emissions

Nothing in the language prints by itself.  Lines of program output and reports
are emitted in order, and whoever receives them decides how they are shown.
-/

namespace Plainspoken

/-- A report: a log entry, a warning or an error. -/
inductive Event where
  | log (kind : LogKind) (span : Span) (arguments : List Argument)
  | warning (kind : WarningKind) (span : Span) (arguments : List Argument)
  | error (kind : ErrorKind) (span : Span) (arguments : List Argument)
      (buffered : String)
  deriving DecidableEq

/-- One thing emitted: a line of program output or a report. -/
inductive Emission where
  | line (text : String)
  | event (event : Event)
  deriving DecidableEq

/-- Emissions in the order in which they were made. -/
abbrev Transcript := Array Emission

namespace Transcript

def lines (transcript : Transcript) : List String :=
  transcript.toList.filterMap fun
    | .line text => some text
    | .event _ => none

def events (transcript : Transcript) : List Event :=
  transcript.toList.filterMap fun
    | .line _ => none
    | .event event => some event

/-- The lines of program output, joined without separators. -/
def output (transcript : Transcript) : String :=
  String.join transcript.lines

def errorKinds (transcript : Transcript) : List ErrorKind :=
  transcript.events.filterMap fun
    | .error kind _ _ _ => some kind
    | _ => none

def warningKinds (transcript : Transcript) : List WarningKind :=
  transcript.events.filterMap fun
    | .warning kind _ _ => some kind
    | _ => none

end Transcript

end Plainspoken
