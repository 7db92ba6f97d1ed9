/-!
# JSON documents

Configuration and message catalogs are JSON documents.  Numbers and texts are
kept as they are written, because a member that nobody asks for may hold a
number out of range or half of a surrogate pair, and one that is asked for may
not.
-/

namespace Plainspoken

namespace Document

/-- One written character of a text: itself, or a four-digit escape. -/
inductive Piece where
  | plain (character : Char)
  | escaped (unit : Nat)
  deriving DecidableEq

/-- A number as it is written, digit by digit. -/
structure Numeral where
  negative : Bool
  whole : List Nat
  fraction : Option (List Nat)
  /-- Whether the exponent is negative, and its digits. -/
  exponent : Option (Bool × List Nat)
  deriving DecidableEq

end Document

inductive Document where
  | null
  | fact (holds : Bool)
  | numeral (written : Document.Numeral)
  | text (pieces : List Document.Piece)
  | list (items : List Document)
  | record (members : List (List Document.Piece × Document))

namespace Document

/-- The first half of a surrogate pair. -/
def isLeadingUnit (unit : Nat) : Bool :=
  0xD800 ≤ unit && unit < 0xDC00

/-- The second half of a surrogate pair. -/
def isTrailingUnit (unit : Nat) : Bool :=
  0xDC00 ≤ unit && unit < 0xE000

/-- The characters of a text, unless half of a surrogate pair stands alone. -/
def characters? : List Piece → Option (List Char)
  | [] => some []
  | .plain character :: pieces => (characters? pieces).map (character :: ·)
  | .escaped leading :: .escaped trailing :: pieces =>
      if isLeadingUnit leading && isTrailingUnit trailing then
        let code := 0x10000 + (leading - 0xD800) * 0x400 + (trailing - 0xDC00)
        (characters? pieces).map (Char.ofNat code :: ·)
      else if isLeadingUnit leading || isTrailingUnit leading then none
      else (characters? (.escaped trailing :: pieces)).map (Char.ofNat leading :: ·)
  | .escaped unit :: pieces =>
      if isLeadingUnit unit || isTrailingUnit unit then none
      else (characters? pieces).map (Char.ofNat unit :: ·)

/-- The text that pieces spell. -/
def spelled? (pieces : List Piece) : Option String :=
  (characters? pieces).map String.ofList

def asText? : Document → Option String
  | .text pieces => spelled? pieces
  | _ => none

/-- The members of a record with their names spelled out. -/
def asMembers? : Document → Option (List (String × Document))
  | .record members =>
      members.mapM fun (pieces, document) => (spelled? pieces).map (·, document)
  | _ => none

/-- The document of a named member, when at most one has that name. -/
def uniqueMember? (members : List (String × Document)) (name : String) :
    Option (Option Document) :=
  match members.filter (·.1 == name) with
  | [] => some none
  | [(_, document)] => some (some document)
  | _ => none

/-- The documents that stand for the fields of a structure in a given order: a
record names them, each at most once, and a list gives the first ones in
order, and no more than there are. -/
def fields? (names : List String) : Document → Option (List (Option Document))
  | .list items =>
      if items.length ≤ names.length then
        some (items.map some ++ List.replicate (names.length - items.length) none)
      else none
  | document => do
      let members ← document.asMembers?
      names.mapM (uniqueMember? members)

/-- A record of texts under names; of two members of one name the later one
counts, and it comes first here. -/
def asTable? (document : Document) : Option (List (String × String)) := do
  let members ← document.asMembers?
  let table ← members.mapM fun (name, member) => (member.asText?).map (name, ·)
  return table.reverse

end Document

end Plainspoken
