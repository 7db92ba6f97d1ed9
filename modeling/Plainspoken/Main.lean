import Plainspoken.CommandLine.Service
import Std.Time.Zoned

/-!
# The program

Serves the command line of the process with its files, streams and clock.  The
exit status is zero for a program that ran, one for a program that failed to be
built or run, and two for a command line that could not be served.
-/

namespace Plainspoken

namespace Terminal

def padded (width : Nat) (number : Int) : String :=
  let digits := toString number
  String.ofList (List.replicate (width - digits.length) '0') ++ digits

/-- The local date and time, `YYYY-MM-DD HH:MM:SS`. -/
def localTime : IO String := do
  let now ← Std.Time.PlainDateTime.now
  let date := "-".intercalate
    [padded 4 now.date.year.toInt, padded 2 now.date.month.val, padded 2 now.date.day.val]
  let time := ":".intercalate
    [padded 2 now.time.hour.val, padded 2 now.time.minute.val, padded 2 now.time.second.val]
  return date ++ " " ++ time

/-- The two streams that the channels of the process are directed to. -/
structure Streams where
  output : IO.Ref IO.FS.Stream
  reports : IO.Ref IO.FS.Stream

def Streams.ofChannel (streams : Streams) : Channel → IO.Ref IO.FS.Stream
  | .output => streams.output
  | .reports => streams.reports

/-- The content of a file, if it can be read as text. -/
def readText (path : String) : IO (Option String) := do
  try
    return some (← IO.FS.readFile path)
  catch _ =>
    return none

/-- Directs a channel to a new or emptied file. -/
def redirect (streams : Streams) (channel : Channel) (path : String) : IO Bool := do
  try
    let handle ← IO.FS.Handle.mk path .write
    (streams.ofChannel channel).set (IO.FS.Stream.ofHandle handle)
    return true
  catch _ =>
    return false

/-- Writes to a channel.  A broken stream has nowhere to be reported. -/
def write (streams : Streams) (chunk : Chunk) : IO Unit := do
  try
    let stream ← (streams.ofChannel chunk.channel).get
    stream.putStr chunk.text
    stream.flush
  catch _ =>
    return ()

def surroundings (streams : Streams) : Surroundings IO where
  read := readText
  redirect := redirect streams
  write := write streams
  time := localTime

end Terminal

end Plainspoken

def main (arguments : List String) : IO UInt32 := do
  let streams : Plainspoken.Terminal.Streams :=
    ⟨← IO.mkRef (← IO.getStdout), ← IO.mkRef (← IO.getStderr)⟩
  let ending ←
    Plainspoken.CommandLine.serve (Plainspoken.Terminal.surroundings streams)
      Plainspoken.ampleFuel arguments
  match ending with
  | some (.refused complaint) =>
      IO.eprintln ("verbose: " ++ complaint.message)
      return 2
  | some ending => return ending.status.toUInt32
  | none => return 1
