/-!
# Source positions

Every token, tree node and report carries the line and the column at which it
stands.  Positions are written `(line, column)` in messages.
-/

namespace Plainspoken

/-- A line and a column of a source text, both counted from one. -/
structure Span where
  line : Nat
  column : Nat
  deriving DecidableEq

namespace Span

/-- The position before the first character: reading one character from here
lands on line one, column one. -/
def beforeSource : Span := ⟨1, 0⟩

def firstCharacter : Span := ⟨1, 1⟩

def nextColumn (span : Span) : Span :=
  { span with column := span.column + 1 }

def nextLine (span : Span) : Span :=
  ⟨span.line + 1, 1⟩

/-- The written form of a position, `(line, column)`. -/
def display (span : Span) : String :=
  "(" ++ toString span.line ++ ", " ++ toString span.column ++ ")"

@[simp]
theorem nextColumn_line (span : Span) : span.nextColumn.line = span.line :=
  rfl

@[simp]
theorem nextColumn_column (span : Span) :
    span.nextColumn.column = span.column + 1 :=
  rfl

@[simp]
theorem nextLine_line (span : Span) : span.nextLine.line = span.line + 1 :=
  rfl

@[simp]
theorem nextLine_column (span : Span) : span.nextLine.column = 1 :=
  rfl

end Span

end Plainspoken
