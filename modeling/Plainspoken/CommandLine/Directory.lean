import Plainspoken.CommandLine.Service

/-!
# A directory to serve in

Surroundings without a machine around them: a directory of files, the texts of
the two standard streams, and a clock that stands still.  Every channel that
has been directed to a file writes at a place of its own, so two channels
directed to one file write over each other.
-/

namespace Plainspoken

/-- The place at which a channel writes: the end of its standard stream, or a
byte of a file. -/
inductive Destination where
  | stream
  | file (path : String) (offset : Nat)
  deriving DecidableEq

/-- Files, standard streams, and where the channels write. -/
structure Directory where
  /-- The content of every file, by path. -/
  files : List (String × ByteArray)
  /-- Which files can be created. -/
  canCreate : String → Bool
  time : String
  outputStream : String
  reportStream : String
  outputDestination : Destination
  reportDestination : Destination

namespace Directory

def holding (files : List (String × String)) (canCreate : String → Bool) (time : String) :
    Directory where
  files := files.map fun (path, text) => (path, text.toUTF8)
  canCreate := canCreate
  time := time
  outputStream := ""
  reportStream := ""
  outputDestination := .stream
  reportDestination := .stream

def bytes? (directory : Directory) (path : String) : Option ByteArray :=
  directory.files.lookup path

def text? (directory : Directory) (path : String) : Option String :=
  (directory.bytes? path).bind String.fromUTF8?

def setBytes (directory : Directory) (path : String) (content : ByteArray) : Directory :=
  { directory with
    files := (path, content) :: directory.files.filter (·.1 ≠ path) }

def destination (directory : Directory) : Channel → Destination
  | .output => directory.outputDestination
  | .reports => directory.reportDestination

def setDestination (directory : Directory) (destination : Destination) :
    Channel → Directory
  | .output => { directory with outputDestination := destination }
  | .reports => { directory with reportDestination := destination }

/-- Empties or creates a file and makes a channel write to it. -/
def redirect (directory : Directory) (channel : Channel) (path : String) :
    Bool × Directory :=
  if directory.canCreate path then
    (true, (directory.setBytes path .empty).setDestination (.file path 0) channel)
  else (false, directory)

/-- Writes bytes over those that stand from an offset on. -/
def overwrite (content written : ByteArray) (offset : Nat) : ByteArray :=
  content.extract 0 offset ++ written
    ++ content.extract (offset + written.size) content.size

/-- Appends a text to the standard stream of a channel. -/
def append (directory : Directory) (chunk : Chunk) : Directory :=
  match chunk.channel with
  | .output => { directory with outputStream := directory.outputStream ++ chunk.text }
  | .reports => { directory with reportStream := directory.reportStream ++ chunk.text }

def write (directory : Directory) (chunk : Chunk) : Directory :=
  match directory.destination chunk.channel with
  | .stream => directory.append chunk
  | .file path offset =>
      let written := chunk.text.toUTF8
      let content := (directory.bytes? path).getD .empty
      (directory.setBytes path (overwrite content written offset)).setDestination
        (.file path (offset + written.size)) chunk.channel

def surroundings : Surroundings (StateM Directory) where
  read path := return (← get).text? path
  redirect channel path := modifyGet (·.redirect channel path)
  write chunk := modify (·.write chunk)
  time := return (← get).time

def serve (fuel : Nat) (arguments : List String) (directory : Directory) :
    Option Ending × Directory :=
  (CommandLine.serve surroundings fuel arguments).run directory

end Directory

end Plainspoken
