/-!
# Limits

Bounds on what a source may spell out and on how deeply a program may nest
while it runs.
-/

namespace Plainspoken

/-- The bounds under which a source is read and a program is run. -/
structure Limits where
  /-- The most characters an identifier may have. -/
  maxIdentifier : Nat
  /-- The most characters a text literal may have. -/
  maxText : Nat
  /-- The most characters a comment may have. -/
  maxComment : Nat
  /-- The largest number a literal may reach. -/
  maxNumber : Float
  /-- The nesting of evaluated nodes at which a run overflows. -/
  maxDepth : Nat

namespace Limits

/-- The largest finite double. -/
def largestNumber : Float := Float.ofBits 0x7FEFFFFFFFFFFFFF

/-- The limits that hold where nothing else is configured. -/
def standard : Limits where
  maxIdentifier := 100
  maxText := 100
  maxComment := 100
  maxNumber := largestNumber
  maxDepth := 1600

end Limits

end Plainspoken
