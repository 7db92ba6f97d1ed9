import Plainspoken.Document.Numeral
import Plainspoken.Document.Reader
import Plainspoken.Limits

/-!
# Limits from a JSON document

A limits document names the limits it changes; the others stay standard.
-/

namespace Plainspoken

namespace Limits

def fieldNames : List String :=
  ["max_identifier", "max_text", "max_comment", "max_number", "max_depth"]

/-- An optional field read with a reader, or its standard value. -/
def fieldOr {α : Type} (read : Document → Option α) (standard : α) :
    Option Document → Option α
  | none => some standard
  | some document => read document

def ofDocument? (document : Document) : Option Limits := do
  match ← document.fields? fieldNames with
  | [maxIdentifier, maxText, maxComment, maxNumber, maxDepth] =>
      return {
        maxIdentifier := ← fieldOr Document.asUnsigned? standard.maxIdentifier maxIdentifier
        maxText := ← fieldOr Document.asUnsigned? standard.maxText maxText
        maxComment := ← fieldOr Document.asUnsigned? standard.maxComment maxComment
        maxNumber := ← fieldOr Document.asDouble? standard.maxNumber maxNumber
        maxDepth := ← fieldOr Document.asUnsigned? standard.maxDepth maxDepth }
  | _ => none

def ofText? (text : String) : Option Limits :=
  (Document.ofText? text).bind ofDocument?

end Limits

end Plainspoken
