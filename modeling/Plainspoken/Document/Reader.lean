import Plainspoken.Document.Basic

/-!
# Reading JSON documents

Strict reading: no comments, no trailing commas, no leading zeros, no control
characters in texts, and nothing but blanks after the document.
-/

namespace Plainspoken

namespace Document

/-- Drops the blanks that may stand between the parts of a document. -/
def skipBlanks (characters : List Char) : List Char :=
  characters.dropWhile fun character =>
    character == ' ' || character == '\n' || character == '\r' || character == '\t'

def hexDigit? (character : Char) : Option Nat :=
  if character.isDigit then some (character.toNat - '0'.toNat)
  else if 'a' ≤ character ∧ character ≤ 'f' then
    some (character.toNat - 'a'.toNat + 10)
  else if 'A' ≤ character ∧ character ≤ 'F' then
    some (character.toNat - 'A'.toNat + 10)
  else none

/-- The unit that four hexadecimal digits denote. -/
def hexUnit? (first second third fourth : Char) : Option Nat := do
  let first ← hexDigit? first
  let second ← hexDigit? second
  let third ← hexDigit? third
  let fourth ← hexDigit? fourth
  return ((first * 16 + second) * 16 + third) * 16 + fourth

/-- The character that a one-letter escape stands for. -/
def escapedCharacter? : Char → Option Char
  | '"' => some '"'
  | '\\' => some '\\'
  | '/' => some '/'
  | 'b' => some (Char.ofNat 0x08)
  | 'f' => some (Char.ofNat 0x0C)
  | 'n' => some '\n'
  | 'r' => some '\r'
  | 't' => some '\t'
  | _ => none

/-- Reads the rest of a text, its closing quote included. -/
def readPieces : List Char → Option (List Piece × List Char)
  | [] => none
  | '"' :: rest => some ([], rest)
  | '\\' :: 'u' :: first :: second :: third :: fourth :: rest => do
      let unit ← hexUnit? first second third fourth
      let (pieces, rest) ← readPieces rest
      return (.escaped unit :: pieces, rest)
  | '\\' :: letter :: rest => do
      let character ← escapedCharacter? letter
      let (pieces, rest) ← readPieces rest
      return (.plain character :: pieces, rest)
  | character :: rest =>
      if character = '\\' ∨ character.toNat < 0x20 then none
      else do
        let (pieces, rest) ← readPieces rest
        return (.plain character :: pieces, rest)

/-- Reads digits, at least one. -/
def readDigits (characters : List Char) : Option (List Nat × List Char) :=
  let digits := characters.takeWhile Char.isDigit
  if digits.isEmpty then none
  else
    some (digits.map fun digit => digit.toNat - '0'.toNat,
      characters.dropWhile Char.isDigit)

/-- Reads the whole part of a number: a zero alone, or digits that do not
begin with one. -/
def readWhole : List Char → Option (List Nat × List Char)
  | '0' :: rest => some ([0], rest)
  | characters => readDigits characters

def readFraction : List Char → Option (Option (List Nat) × List Char)
  | '.' :: rest => do
      let (digits, rest) ← readDigits rest
      return (some digits, rest)
  | characters => some (none, characters)

def readExponent : List Char → Option (Option (Bool × List Nat) × List Char)
  | character :: rest =>
      if character = 'e' ∨ character = 'E' then do
        let (negative, rest) : Bool × List Char :=
          match rest with
          | '-' :: rest => (true, rest)
          | '+' :: rest => (false, rest)
          | rest => (false, rest)
        let (digits, rest) ← readDigits rest
        return (some (negative, digits), rest)
      else some (none, character :: rest)
  | [] => some (none, [])

def readNumeral (characters : List Char) : Option (Numeral × List Char) := do
  let (negative, rest) : Bool × List Char :=
    match characters with
    | '-' :: rest => (true, rest)
    | rest => (false, rest)
  let (whole, rest) ← readWhole rest
  let (fraction, rest) ← readFraction rest
  let (exponent, rest) ← readExponent rest
  return (⟨negative, whole, fraction, exponent⟩, rest)

mutual

/-- Reads a document; `fuel` bounds its nesting and the length of its lists. -/
def readDocument : Nat → List Char → Option (Document × List Char)
  | 0, _ => none
  | fuel + 1, characters =>
      match skipBlanks characters with
      | 'n' :: 'u' :: 'l' :: 'l' :: rest => some (.null, rest)
      | 't' :: 'r' :: 'u' :: 'e' :: rest => some (.fact true, rest)
      | 'f' :: 'a' :: 'l' :: 's' :: 'e' :: rest => some (.fact false, rest)
      | '"' :: rest => do
          let (pieces, rest) ← readPieces rest
          return (.text pieces, rest)
      | '[' :: rest =>
          match skipBlanks rest with
          | ']' :: rest => some (.list [], rest)
          | rest => do
              let (items, rest) ← readItems fuel rest
              return (.list items, rest)
      | '\x7b' :: rest =>
          match skipBlanks rest with
          | '\x7d' :: rest => some (.record [], rest)
          | rest => do
              let (members, rest) ← readMembers fuel rest
              return (.record members, rest)
      | rest => do
          let (written, rest) ← readNumeral rest
          return (.numeral written, rest)

/-- Reads the items of a list, at least one, and its closing bracket. -/
def readItems : Nat → List Char → Option (List Document × List Char)
  | 0, _ => none
  | fuel + 1, characters => do
      let (item, rest) ← readDocument fuel characters
      match skipBlanks rest with
      | ',' :: rest =>
          let (items, rest) ← readItems fuel rest
          return (item :: items, rest)
      | ']' :: rest => return ([item], rest)
      | _ => none

/-- Reads the members of a record, at least one, and its closing brace. -/
def readMembers : Nat → List Char → Option (List (List Piece × Document) × List Char)
  | 0, _ => none
  | fuel + 1, characters =>
      match skipBlanks characters with
      | '"' :: rest => do
          let (name, rest) ← readPieces rest
          match skipBlanks rest with
          | ':' :: rest =>
              let (document, rest) ← readDocument fuel rest
              match skipBlanks rest with
              | ',' :: rest =>
                  let (members, rest) ← readMembers fuel rest
                  return ((name, document) :: members, rest)
              | '\x7d' :: rest => return ([(name, document)], rest)
              | _ => none
          | _ => none
      | _ => none

end

/-- Reads a text that holds one document and nothing else. -/
def ofText? (text : String) : Option Document := do
  let characters := text.toList
  let (document, rest) ← readDocument (characters.length + 1) characters
  if (skipBlanks rest).isEmpty then return document else none

end Document

end Plainspoken
