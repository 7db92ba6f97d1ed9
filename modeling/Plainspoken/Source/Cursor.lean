import Plainspoken.Character.WhiteSpace
import Plainspoken.Span

/-!
# The source cursor

A source is read one character at a time.  The cursor stands on a character
and knows its position, the form of line break the source uses, and the
characters read since the last token, which error messages quote.

Braces are grouping noise: moving on passes over them everywhere but in texts
and comments.
-/

namespace Plainspoken

/-- A form of line break: one character, or two in a fixed order. -/
structure LineBreak where
  first : Char
  second : Option Char
  deriving DecidableEq

/-- The control character that separates records; it breaks lines too. -/
def recordSeparator : Char := Char.ofNat 0x1E

/-- A place in a source that is being read. -/
structure Cursor where
  /-- The character under the cursor and all those after it. -/
  remaining : List Char
  /-- Where the character under the cursor stands. -/
  position : Span
  /-- The form of line break, once the first one has been met. -/
  lineBreak : Option LineBreak
  /-- The characters read since the last token, the latest first. -/
  consumed : List Char
  deriving DecidableEq

namespace Cursor

/-- The character under the cursor; none at the end of the source. -/
def current (cursor : Cursor) : Option Char :=
  cursor.remaining.head?

def following (cursor : Cursor) : Option Char :=
  cursor.remaining.tail.head?

def atEnd (cursor : Cursor) : Bool :=
  cursor.remaining.isEmpty

def isOn (cursor : Cursor) (character : Char) : Bool :=
  cursor.current == some character

def isOnClass (cursor : Cursor) (property : Char → Bool) : Bool :=
  cursor.current.any property

/-- The characters read since the last token, without white space at either
end. -/
def buffered (cursor : Cursor) : String :=
  String.ofList (Character.trim cursor.consumed.reverse)

/-- Forgets the characters read, except the one under the cursor. -/
def restartBuffer (cursor : Cursor) : Cursor :=
  { cursor with consumed := cursor.current.toList }

/-- Moves on by exactly one character.  The column grows even past the end. -/
def advance (cursor : Cursor) : Cursor :=
  { cursor with
    remaining := cursor.remaining.tail
    position := cursor.position.nextColumn
    consumed := cursor.following.toList ++ cursor.consumed }

/-- Moves on past the characters of a class. -/
def advanceWhile (cursor : Cursor) (property : Char → Bool) : Cursor :=
  (cursor.remaining.takeWhile property).foldl (fun moved _ => moved.advance) cursor

def isBrace (character : Char) : Bool :=
  character == Char.ofNat 0x7B || character == Char.ofNat 0x7D

/-- Whether a character may stand between the digits of a number. -/
def isDigitSeparator (character : Char) : Bool :=
  character == '_' || isBrace character

/-- Moves on, passing over braces. -/
def next (cursor : Cursor) : Cursor :=
  cursor.advance.advanceWhile isBrace

/-- Moves on inside a number, passing over braces and underscores. -/
def nextInNumber (cursor : Cursor) : Cursor :=
  cursor.advance.advanceWhile isDigitSeparator

/-- Moves on inside a text or comment, where every character counts. -/
def nextInBody (cursor : Cursor) : Cursor :=
  cursor.advance

/-- The cursor on the first character of a source that is not a brace. -/
def ofSource (source : String) : Cursor :=
  let characters := source.toList
  let start : Cursor :=
    { remaining := characters
      position := .firstCharacter
      lineBreak := none
      consumed := characters.head?.toList }
  start.advanceWhile isBrace

/-- The form of the line break that starts under the cursor, when the source
has not yet shown one. -/
def lineBreakHere? (cursor : Cursor) : Option LineBreak :=
  match cursor.current with
  | some '\r' => some ⟨'\r', cursor.following.filter (· == '\n')⟩
  | some '\n' => some ⟨'\n', cursor.following.filter (· == '\r')⟩
  | some character =>
      if character = recordSeparator then some ⟨recordSeparator, none⟩ else none
  | none => none

def isOnForm (cursor : Cursor) (form : LineBreak) : Bool :=
  cursor.isOn form.first &&
    form.second.all fun second => cursor.following == some second

def isOnLineBreak (cursor : Cursor) : Bool :=
  match cursor.lineBreak with
  | some form => cursor.isOnForm form
  | none => cursor.lineBreakHere?.isSome

/-- Whether the cursor is at the end of the source or on a line break: white
space that tokens are made of. -/
def isOnSpecial (cursor : Cursor) : Bool :=
  cursor.atEnd || cursor.isOnLineBreak

/-- Passes over a line break of a given form, to the first column of the next
line. -/
def passLineBreak (cursor : Cursor) (form : LineBreak) : Cursor :=
  let passed := if form.second.isSome then cursor.advance.next else cursor.next
  { passed with
    position := passed.position.nextLine
    lineBreak := some form }.restartBuffer

/-- Passes over the line break under the cursor, if there is one.  The first
line break of a source fixes the form of all the others. -/
def takeLineBreak? (cursor : Cursor) : Option Cursor :=
  match cursor.lineBreak with
  | some form => if cursor.isOnForm form then some (cursor.passLineBreak form) else none
  | none => cursor.lineBreakHere?.map cursor.passLineBreak

/-- Moves on over white space other than line breaks, at most a given number
of times. -/
def skipBlanksUpTo : Nat → Cursor → Cursor
  | 0, cursor => cursor
  | steps + 1, cursor =>
      if cursor.isOnClass Character.isWhiteSpace && !cursor.isOnSpecial then
        skipBlanksUpTo steps cursor.next
      else cursor

/-- Moves on over white space, up to a line break or the end of the source. -/
def skipBlanks (cursor : Cursor) : Cursor :=
  skipBlanksUpTo cursor.remaining.length cursor

end Cursor

end Plainspoken
