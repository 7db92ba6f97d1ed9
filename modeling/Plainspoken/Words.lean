import Plainspoken.Number.Remainder
import Plainspoken.Number.Text

/-!
# Words

The words of a text are what stands between its single spaces: two neighbouring
spaces have an empty word between them.  A text is taken apart at its first or
at its last space.
-/

namespace Plainspoken

namespace Words

/-- The words of a list of characters, at least one. -/
def split : List Char → List (List Char)
  | [] => [[]]
  | character :: characters =>
      if character = ' ' then [] :: split characters
      else
        match split characters with
        | [] => [[character]]
        | word :: words => (character :: word) :: words

/-- Words with a space between neighbours. -/
def join (words : List (List Char)) : String :=
  String.ofList (List.intercalate [' '] words)

def ofText (text : String) : List (List Char) :=
  split text.toList

def first (text : String) : String :=
  String.ofList ((ofText text).head?.getD [])

def last (text : String) : String :=
  String.ofList ((ofText text).getLast?.getD [])

/-- All but the last word; a single word has no body. -/
def body (text : String) : Option String :=
  let words := ofText text
  if 1 < words.length then some (join words.dropLast) else none

/-- All but the first word; a single word has no tail. -/
def tail (text : String) : Option String :=
  let words := ofText text
  if 1 < words.length then some (join words.tail) else none

/-- Takes the first word off. -/
def splitFirst (text : String) : String × Option String :=
  (first text, tail text)

/-- Takes the last word off.  What is left of a single word is the empty
text, and nothing has been taken off it. -/
def splitLast (text : String) : String × Option String :=
  let words := ofText text
  (join words.dropLast, if 1 < words.length then some (last text) else none)

end Words

/-- The word `Fizz` for multiples of three, `Buzz` for multiples of five, both
for multiples of both, and the number itself otherwise. -/
def fizzBuzz (number : Float) : String :=
  let fizz := if Number.remainder number 3.0 == 0.0 then "Fizz" else ""
  let buzz := if Number.remainder number 5.0 == 0.0 then "Buzz" else ""
  let word := fizz ++ buzz
  if word.isEmpty then Number.text number else word

end Plainspoken
