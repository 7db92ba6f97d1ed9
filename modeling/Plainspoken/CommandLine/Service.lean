import Plainspoken.Catalog.English
import Plainspoken.CommandLine.Options
import Plainspoken.Console
import Plainspoken.Document.Limits
import Plainspoken.Session

/-!
# Serving a command line

A command line is served in surroundings that offer files, two channels and a
clock.  The locale and the limits are read first, then the files for output are
created and the start is logged, and only then the program is read, built and
run.  The first obstacle ends the service; what has been written by then
stays.
-/

namespace Plainspoken

/-- What a command line is served with. -/
structure Surroundings (m : Type → Type) where
  /-- The content of a file, if it can be read as text. -/
  read : String → m (Option String)
  /-- Directs a channel to a new or emptied file, and tells whether that was
  possible. -/
  redirect : Channel → String → m Bool
  /-- Writes to a channel. -/
  write : Chunk → m Unit
  /-- The local date and time. -/
  time : m String

/-- Why a command line cannot be served. -/
inductive Complaint where
  | usage
  | unreadableLocale (path : String)
  | malformedLocale (path : String)
  | unreadable (path : String)
  | malformedLimits (path : String)
  | uncreatable (path : String)
  deriving DecidableEq

def Complaint.message : Complaint → String
  | .usage => "usage"
  | .unreadableLocale path => "cannot read locale " ++ path
  | .malformedLocale path => "malformed locale " ++ path
  | .unreadable path => "cannot read " ++ path
  | .malformedLimits path => "malformed limits in " ++ path
  | .uncreatable path => "cannot create " ++ path

inductive Ending where
  | succeeded
  /-- The program is missing, cannot be built, or fails. -/
  | failed
  | refused (complaint : Complaint)
  deriving DecidableEq

def Ending.status : Ending → Nat
  | .succeeded => 0
  | .failed => 1
  | .refused _ => 2

namespace CommandLine

variable {m : Type → Type} [Monad m] (surroundings : Surroundings m)

def chooseCatalog (settings : Settings) : m (Except Complaint Catalog) := do
  match settings.value? .locale with
  | none => return .ok .english
  | some path =>
      match ← surroundings.read path with
      | none => return .error (.unreadableLocale path)
      | some text =>
          match Catalog.ofText? text with
          | none => return .error (.malformedLocale path)
          | some catalog => return .ok catalog

def chooseLimits (settings : Settings) : m (Except Complaint Limits) := do
  match settings.value? .config with
  | none => return .ok .standard
  | some path =>
      match ← surroundings.read path with
      | none => return .error (.unreadable path)
      | some text =>
          match Limits.ofText? text with
          | none => return .error (.malformedLimits path)
          | some limits => return .ok limits

def direct (channel : Channel) (path : Option String) : m (Except Complaint Unit) := do
  match path with
  | none => return .ok ()
  | some path =>
      if ← surroundings.redirect channel path then return .ok ()
      else return .error (.uncreatable path)

def chooseSource (settings : Settings) : m (Except Complaint (Option String)) := do
  match settings.value? .input, settings.value? .file with
  | some source, _ => return .ok (some source)
  | none, none => return .ok none
  | none, some path =>
      match ← surroundings.read path with
      | none => return .error (.unreadable path)
      | some source => return .ok (some source)

def writeAll : List Chunk → m Unit
  | [] => return ()
  | chunk :: chunks => do
      surroundings.write chunk
      writeAll chunks

def startEntry (time : String) : Emission :=
  .event (.log .initialized .beforeSource [.text time])

def missingSource : Emission :=
  .event (.error .noSource .beforeSource [] "")

def runSource (fuel : Nat) (catalog : Catalog) (limits : Limits) (source : String) :
    m (Option Ending) := do
  match (Session.start limits).buildAndRun? fuel source with
  | none => return none
  | some (success, session) =>
      writeAll surroundings
        ((Console.mk catalog (some source)).chunks session.machine.emitted)
      return some (if success then .succeeded else .failed)

def serveSource (fuel : Nat) (catalog : Catalog) (limits : Limits) (settings : Settings) :
    m (Option Ending) := do
  let console : Console := ⟨catalog, none⟩
  surroundings.write (console.chunk (startEntry (← surroundings.time)))
  match ← chooseSource surroundings settings with
  | .error complaint => return some (.refused complaint)
  | .ok none =>
      surroundings.write (console.chunk missingSource)
      return some .failed
  | .ok (some source) => runSource surroundings fuel catalog limits source

def serveSettings (fuel : Nat) (settings : Settings) : m (Option Ending) := do
  match ← chooseCatalog surroundings settings with
  | .error complaint => return some (.refused complaint)
  | .ok catalog =>
  match ← chooseLimits surroundings settings with
  | .error complaint => return some (.refused complaint)
  | .ok limits =>
  match ← direct surroundings .output (settings.value? .out) with
  | .error complaint => return some (.refused complaint)
  | .ok () =>
  match ← direct surroundings .reports (settings.value? .err) with
  | .error complaint => return some (.refused complaint)
  | .ok () => serveSource surroundings fuel catalog limits settings

/-- Serves a command line.  There is no ending when the fuel does not suffice
to run the program. -/
def serve (fuel : Nat) (arguments : List String) : m (Option Ending) :=
  match Settings.ofArguments? arguments with
  | none => return some (.refused .usage)
  | some settings => serveSettings surroundings fuel settings

end CommandLine

end Plainspoken
