import Plainspoken.State.Callable
import Plainspoken.State.Flags

/-!
# Scopes

A scope holds the variables and callables declared in one block, and flags.
A variable that refers to another one stores the site of that variable.
-/

namespace Plainspoken

/-- Where a variable lives: the height of its frame, the height of its scope in
that frame, and its name. -/
structure Site where
  frame : Nat
  scope : Nat
  name : String
  deriving DecidableEq

/-- A variable and what it holds. -/
structure Variable where
  declarator : Declarator
  value : Value
  /-- The variable that a reference parameter stands for. -/
  reference : Option Site
  initialized : Bool
  deriving DecidableEq

namespace Variable

def name (binding : Variable) : String :=
  binding.declarator.name

/-- A variable with a first value. -/
def holding (declarator : Declarator) (value : Value) : Variable :=
  ⟨declarator, value, none, true⟩

/-- A variable without a value yet. -/
def uninitialized (declarator : Declarator) : Variable :=
  ⟨declarator, .nothing, none, false⟩

/-- The variable after a value has been stored in it. -/
def store (binding : Variable) (value : Value) : Variable :=
  { binding with value := value, initialized := true }

end Variable

/-- The variables and callables of one block. -/
structure Scope where
  bindings : List Variable
  entries : List Entry
  flags : Flags

namespace Scope

def empty : Scope := ⟨[], [], .empty⟩

/-- A scope with nothing in it but flags. -/
def withFlags (flags : Flags) : Scope :=
  { empty with flags := flags }

def binding? (scope : Scope) (name : String) : Option Variable :=
  scope.bindings.find? (·.name == name)

/-- Adds a variable, in place of one of the same name. -/
def insertVariable (scope : Scope) (binding : Variable) : Scope :=
  { scope with
    bindings := binding :: scope.bindings.filter (·.name != binding.name) }

def modifyVariable (scope : Scope) (name : String) (change : Variable → Variable) : Scope :=
  { scope with
    bindings := scope.bindings.map fun binding =>
      if binding.name == name then change binding else binding }

/-- The entry for a name and a number of arguments. -/
def declared? (scope : Scope) (name : String) (arity : Nat) : Option Entry :=
  scope.entries.find? (·.callable.answers name arity)

/-- Adds an entry, in place of one of the same key. -/
def insertEntry (scope : Scope) (entry : Entry) : Scope :=
  { scope with
    entries := entry :: scope.entries.filter fun other =>
      !other.callable.answers entry.callable.name entry.callable.arity }

def setFlags (scope : Scope) (flags : Flags) : Scope :=
  { scope with flags := scope.flags.union flags }

def unsetFlags (scope : Scope) (flags : Flags) : Scope :=
  { scope with flags := scope.flags.without flags }

end Scope

end Plainspoken
