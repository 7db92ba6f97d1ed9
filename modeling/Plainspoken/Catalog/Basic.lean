import Plainspoken.Catalog.Template
import Plainspoken.Diagnostic.Event
import Plainspoken.Document.Reader

/-!
# Message catalogs

A catalog words reports: it has a template for each kind of report and names
for grammar symbols and types.  In a template place zero is the position of
the report, place one the source text it quotes, and the places after them are
its arguments in order.
-/

namespace Plainspoken

structure Catalog where
  name : String
  /-- The template of every report that has none of its own. -/
  unknown : String
  logs : List (String × String)
  warnings : List (String × String)
  errors : List (String × String)
  symbols : List (String × String)
  types : List (String × String)

namespace Catalog

/-- The template of a kind of informational report, by name. -/
def log (catalog : Catalog) (key : String) : String :=
  (catalog.logs.lookup key).getD catalog.unknown

/-- The template of a kind of warning, by name. -/
def warning (catalog : Catalog) (key : String) : String :=
  (catalog.warnings.lookup key).getD catalog.unknown

/-- The template of a kind of error, by name. -/
def error (catalog : Catalog) (key : String) : String :=
  (catalog.errors.lookup key).getD catalog.unknown

def symbol (catalog : Catalog) (symbol : Symbol) : String :=
  (catalog.symbols.lookup symbol.key).getD symbol.display

def type (catalog : Catalog) (valueType : ValueType) : String :=
  (catalog.types.lookup valueType.key).getD valueType.display

/-- The word for bindings that may be assigned. -/
def mutability (catalog : Catalog) : String :=
  catalog.symbol (.token (.keyword .mutableWord))

def argument (catalog : Catalog) : Argument → String
  | .symbols expected => ", ".intercalate (expected.map catalog.symbol)
  | .type valueType => catalog.type valueType
  | .parameter isMutable valueType name =>
      let word := if isMutable then [catalog.mutability] else []
      let type := [catalog.type valueType].filter (!·.isEmpty)
      " ".intercalate (word ++ type ++ [name])
  | other => other.display

/-- What stands at a place of a template. -/
def placeContent (catalog : Catalog) (span : Span) (buffered : String)
    (arguments : List Argument) : Nat → String
  | 0 => span.display
  | 1 => buffered
  | index + 2 => ((arguments[index]?).map catalog.argument).getD ""

/-- Fills in the places of a template.  What is filled in is not read as a
template again. -/
def render (catalog : Catalog) (template : String) (span : Span) (buffered : String)
    (arguments : List Argument) : String :=
  Template.fill template (catalog.placeContent span buffered arguments)

def fieldNames : List String :=
  ["name", "unknown", "logs", "warnings", "errors", "symbols", "types"]

/-- A table that may be left out. -/
def tableOr : Option Document → Option (List (String × String))
  | none => some []
  | some document => document.asTable?

def ofDocument? (document : Document) : Option Catalog := do
  match ← document.fields? fieldNames with
  | [some name, some unknown, logs, warnings, errors, symbols, types] =>
      return {
        name := ← name.asText?
        unknown := ← unknown.asText?
        logs := ← tableOr logs
        warnings := ← tableOr warnings
        errors := ← tableOr errors
        symbols := ← tableOr symbols
        types := ← tableOr types }
  | _ => none

def ofText? (text : String) : Option Catalog :=
  (Document.ofText? text).bind ofDocument?

end Catalog

end Plainspoken
