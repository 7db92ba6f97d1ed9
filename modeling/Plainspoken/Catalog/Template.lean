import Plainspoken.Character.Numeric

/-!
# Message templates

A template is a text with numbered places, each written as digits between
braces.  A brace that does not belong to such a place is an ordinary
character.
-/

namespace Plainspoken

namespace Template

/-- A part of a template: a character to be copied, or a place with the digits
of its number. -/
inductive Piece where
  | literal (character : Char)
  | place (digits : List Char)
  deriving DecidableEq

def openBrace : Char := Char.ofNat 0x7B

def closeBrace : Char := Char.ofNat 0x7D

/-- The pieces of an opening brace and digits that turned out not to be a
place; the digits come latest first. -/
def literals (digits : List Char) : List Piece :=
  .literal openBrace :: digits.reverse.map .literal

/-- Splits a template into its pieces.  `pending` holds the digits read since
an opening brace, the latest first, while a place may still come of them. -/
def piecesFrom : Option (List Char) → List Char → List Piece
  | none, [] => []
  | some digits, [] => literals digits
  | none, character :: rest =>
      if character = openBrace then piecesFrom (some []) rest
      else .literal character :: piecesFrom none rest
  | some digits, character :: rest =>
      if character = closeBrace ∧ digits ≠ [] then
        .place digits.reverse :: piecesFrom none rest
      else if Character.isDecimalDigit character then
        piecesFrom (some (character :: digits)) rest
      else if character = openBrace then
        literals digits ++ piecesFrom (some []) rest
      else
        literals digits ++ .literal character :: piecesFrom none rest

def pieces (template : String) : List Piece :=
  piecesFrom none template.toList

/-- The number of a place: plain digits that denote a number below `2 ^ 64`. -/
def placeNumber? (digits : List Char) : Option Nat :=
  if digits.all Char.isDigit then
    let number := digits.foldl (fun value digit => value * 10 + (digit.toNat - '0'.toNat)) 0
    if number < UInt64.size then some number else none
  else none

/-- The text of a template whose places are filled in; a place without a plain
number stays empty. -/
def fill (template : String) (content : Nat → String) : String :=
  String.ofList <| (pieces template).flatMap fun
    | .literal character => [character]
    | .place digits => (((placeNumber? digits).map content).getD "").toList

end Template

end Plainspoken
