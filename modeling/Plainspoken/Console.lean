import Plainspoken.Catalog.Basic

/-!
# The console

A console words emissions through a catalog and puts them on two channels:
program output and log entries on one, warnings and errors on the other.  An
error is followed by an excerpt of the source line at its position, when the
source is known and has that line; traces of open frames and the lack of a
source have no excerpt.
-/

namespace Plainspoken

namespace SourceLine

/-- Splits a text at its line feeds; a carriage return right before a line feed
belongs to the break.  `pending` holds the characters of the line being read,
the latest first.  A text that ends with a break has no further line. -/
def splitFrom (pending : List Char) : List Char → List String
  | [] => if pending.isEmpty then [] else [String.ofList pending.reverse]
  | '\n' :: rest => String.ofList pending.reverse :: splitFrom [] rest
  | '\r' :: '\n' :: rest => String.ofList pending.reverse :: splitFrom [] rest
  | character :: rest => splitFrom (character :: pending) rest

def all (text : String) : List String :=
  splitFrom [] text.toList

def numbered? (text : String) : Nat → Option String
  | 0 => none
  | index + 1 => (all text)[index]?

end SourceLine

inductive Channel where
  | output
  | reports
  deriving DecidableEq

/-- A text written to a channel at once, with its final line feed. -/
structure Chunk where
  channel : Channel
  text : String
  deriving DecidableEq

/-- A catalog and, if known, the source of the program. -/
structure Console where
  catalog : Catalog
  source : Option String

namespace Console

/-- A text put flush right in a field of the given width. -/
def flushRight (width : Nat) (text : String) : String :=
  String.ofList (List.replicate (width - text.length) ' ') ++ text

def caret (column : Nat) : String :=
  String.ofList (List.replicate (column - 1) ' ' ++ ['^'])

/-- The line at a position with a caret under its column. -/
def excerptOf? (source : String) (span : Span) : Option String :=
  (SourceLine.numbered? source span.line).map fun line =>
    "    |\n" ++ flushRight 3 (toString span.line) ++ " | " ++ line ++ "\n    | "
      ++ caret span.column

/-- The excerpt at a position, when the source is known. -/
def excerpt? (console : Console) (span : Span) : Option String :=
  console.source.bind (excerptOf? · span)

/-- Whether errors of a kind are followed by an excerpt. -/
def hasExcerpt : ErrorKind → Bool
  | .stackTrace | .noSource => false
  | _ => true

def errorText (console : Console) (kind : ErrorKind) (span : Span)
    (arguments : List Argument) (buffered : String) : String :=
  let text :=
    console.catalog.render (console.catalog.error kind.key) span buffered arguments
  match if hasExcerpt kind then console.excerpt? span else none with
  | some excerpt => text ++ "\n" ++ excerpt
  | none => text

/-- Where an emission goes. -/
def channel : Emission → Channel
  | .line _ | .event (.log _ _ _) => .output
  | .event (.warning _ _ _) | .event (.error _ _ _ _) => .reports

def text (console : Console) : Emission → String
  | .line text => text
  | .event (.log kind span arguments) =>
      console.catalog.render (console.catalog.log kind.key) span "" arguments
  | .event (.warning kind span arguments) =>
      console.catalog.render (console.catalog.warning kind.key) span "" arguments
  | .event (.error kind span arguments buffered) =>
      console.errorText kind span arguments buffered

def chunk (console : Console) (emission : Emission) : Chunk :=
  ⟨channel emission, console.text emission ++ "\n"⟩

def chunks (console : Console) (transcript : Transcript) : List Chunk :=
  transcript.toList.map console.chunk

end Console

end Plainspoken
