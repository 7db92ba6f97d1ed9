import Plainspoken.State.Frame

/-!
# The standard library

The routines that every program can call, as declarations without a body in a
scope of their own.
-/

namespace Plainspoken

namespace Routine

def parameter (isMutable : Bool) (type : ValueType) (name : String) : Declarator :=
  ⟨.beforeSource, isMutable, type, name⟩

def functionEntry (routine : Routine) (parameters : List Declarator)
    (returns : ValueType) : Entry where
  callable := .function ⟨.beforeSource, routine.name, false, parameters, returns⟩
    (.empty .beforeSource)
  routine := some routine

def patternEntry (routine : Routine) (parameter : Declarator) : Entry where
  callable := .pattern ⟨.beforeSource, routine.name, false, parameter⟩
    (.empty .beforeSource)
  routine := some routine

def entry : Routine → Entry
  | .print => functionEntry .print [parameter false .text "t"] .nothing
  | .quit => functionEntry .quit [] .nothing
  | .first => functionEntry .first [parameter false .text "t"] .text
  | .last => functionEntry .last [parameter false .text "t"] .text
  | .body => functionEntry .body [parameter false .text "t"] .text
  | .tail => functionEntry .tail [parameter false .text "t"] .text
  | .split => functionEntry .split
      [parameter false .text "source", parameter true .text "head",
        parameter true .text "tail"] .text
  | .backSplit => functionEntry .backSplit
      [parameter false .text "source", parameter true .text "body",
        parameter true .text "tip"] .text
  | .fizzBuzz => patternEntry .fizzBuzz (parameter false .number "n")

def all : List Routine :=
  [.print, .quit, .first, .last, .body, .tail, .split, .backSplit, .fizzBuzz]

theorem mem_all (routine : Routine) : routine ∈ all := by
  cases routine <;> simp [all]

/-- The scope with the declarations of all routines. -/
def library : Scope :=
  { Scope.empty with entries := all.map entry }

end Routine

end Plainspoken
