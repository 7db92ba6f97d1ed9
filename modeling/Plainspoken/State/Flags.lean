/-!
# Control-flow flags

A scope carries flags that say what is going on in it.  They decide which
jumps are legal, when a match has found its branch, and whether a call has to
yield a value.
-/

namespace Plainspoken

/-- A set of control-flow flags. -/
structure Flags where
  /-- Inside the body of a loop: `SKIP` and `STOP` are legal. -/
  loop : Bool
  /-- Inside a function: `RETURN` is legal. -/
  call : Bool
  /-- Inside a match or pattern: no jump is legal. -/
  matching : Bool
  /-- The last conditional of the scope took its branch. -/
  lastCondition : Bool
  /-- The expression being evaluated has to yield a value. -/
  expectValue : Bool
  deriving DecidableEq

namespace Flags

def empty : Flags := ⟨false, false, false, false, false⟩

def onlyLoop : Flags := { empty with loop := true }

def onlyCall : Flags := { empty with call := true }

def onlyMatching : Flags := { empty with matching := true }

def onlyLastCondition : Flags := { empty with lastCondition := true }

def onlyExpectValue : Flags := { empty with expectValue := true }

/-- The flags that two sets have together. -/
def union (first second : Flags) : Flags where
  loop := first.loop || second.loop
  call := first.call || second.call
  matching := first.matching || second.matching
  lastCondition := first.lastCondition || second.lastCondition
  expectValue := first.expectValue || second.expectValue

/-- The flags of the first set that the second one does not have. -/
def without (first second : Flags) : Flags where
  loop := first.loop && !second.loop
  call := first.call && !second.call
  matching := first.matching && !second.matching
  lastCondition := first.lastCondition && !second.lastCondition
  expectValue := first.expectValue && !second.expectValue

/-- Whether the first set has all flags of the second one. -/
def includes (first second : Flags) : Bool :=
  (second.without first) == empty

@[simp]
theorem includes_empty (flags : Flags) : flags.includes empty = true := by
  simp [includes, without, empty]

end Flags

end Plainspoken
