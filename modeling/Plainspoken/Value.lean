import Plainspoken.Number.Text

/-!
# Values

A program computes with numbers, texts, facts and the absence of a value.
Bindings and results are declared with one of the value types.
-/

namespace Plainspoken

/-- What an expression evaluates to. -/
inductive Value where
  | number (amount : Float)
  | text (content : String)
  | fact (holds : Bool)
  | nothing
  deriving DecidableEq

/-- The declared type of a binding or of a result.  `any` is never written in
a program. -/
inductive ValueType where
  | number
  | text
  | fact
  | nothing
  | any
  deriving DecidableEq

namespace ValueType

def key : ValueType → String
  | .number => "Number"
  | .text => "Text"
  | .fact => "Fact"
  | .nothing => "Nothing"
  | .any => "Any"

/-- The type as a program writes it. -/
def display : ValueType → String
  | .number => "NUMBER"
  | .text => "TEXT"
  | .fact => "FACT"
  | .nothing => "NOTHING"
  | .any => ""

end ValueType

namespace Value

def type : Value → ValueType
  | .number _ => .number
  | .text _ => .text
  | .fact _ => .fact
  | .nothing => .nothing

/-- Whether no value is there. -/
def isNothing : Value → Bool
  | .nothing => true
  | _ => false

/-- A fact as a program writes it. -/
def factText (holds : Bool) : String :=
  if holds then "TRUE" else "FALSE"

/-- A value as it is shown; the absence of a value shows as nothing. -/
def display : Value → String
  | .number amount => Number.text amount
  | .text content => content
  | .fact holds => factText holds
  | .nothing => ""

@[simp]
theorem isNothing_iff (value : Value) : value.isNothing = true ↔ value = .nothing := by
  cases value <;> simp [isNothing]

end Value

end Plainspoken
