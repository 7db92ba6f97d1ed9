import Plainspoken.State.Height
import Plainspoken.State.Scope

/-!
# Frames

A frame belongs to one running call, or to the program itself.  It holds the
scopes of the blocks that are open in it, the innermost first, and the place
it has reached.  Declarations are checked against all scopes of the frame.
-/

namespace Plainspoken

/-- The state of one running call. -/
structure Frame where
  /-- The name of what runs in the frame. -/
  name : String
  /-- Where the node evaluated last in the frame stands. -/
  span : Span
  /-- The declared type of the result. -/
  returns : ValueType
  /-- The open scopes, the innermost first. -/
  scopes : List Scope

namespace Frame

/-- A frame with one empty scope. -/
def start (name : String) (span : Span) (returns : ValueType) : Frame where
  name := name
  span := span
  returns := returns
  scopes := [.empty]

def pushScope (frame : Frame) (scope : Scope) : Frame :=
  { frame with scopes := scope :: frame.scopes }

def popScope (frame : Frame) : Frame :=
  { frame with scopes := frame.scopes.tail }

/-- Changes the innermost scope, if there is one. -/
def modifyInnermost (frame : Frame) (change : Scope → Scope) : Frame :=
  { frame with scopes := List.modifyHead change frame.scopes }

def scope? (frame : Frame) (height : Nat) : Option Scope :=
  Height.get? frame.scopes height

/-! ## Flags -/

/-- Whether some scope has all of the given flags. -/
def hasFlags (frame : Frame) (flags : Flags) : Bool :=
  frame.scopes.any (·.flags.includes flags)

/-- Whether the scopes have all of the given flags between them. -/
def sumsToFlags (frame : Frame) (flags : Flags) : Bool :=
  !frame.scopes.isEmpty &&
    (frame.scopes.foldl (fun sum scope => sum.union scope.flags) Flags.empty).includes flags

def setFlags (frame : Frame) (flags : Flags) : Frame :=
  frame.modifyInnermost (·.setFlags flags)

def unsetFlags (frame : Frame) (flags : Flags) : Frame :=
  frame.modifyInnermost (·.unsetFlags flags)

def innermostFlags (frame : Frame) : Flags :=
  (frame.scopes.head?.map Scope.flags).getD .empty

/-! ## Variables -/

/-- The height of the innermost of some scopes that declares a name. -/
def findIn (name : String) : List Scope → Option Nat
  | [] => none
  | scope :: outer =>
      if (scope.binding? name).isSome then some outer.length else findIn name outer

/-- The height of the innermost scope that declares a name. -/
def find? (frame : Frame) (name : String) : Option Nat :=
  findIn name frame.scopes

def binding? (frame : Frame) (height : Nat) (name : String) : Option Variable :=
  (frame.scope? height).bind (·.binding? name)

/-- Changes the variable of a name in the scope at a height, if there is one. -/
def modifyVariable (frame : Frame) (height : Nat) (name : String)
    (change : Variable → Variable) : Frame :=
  { frame with
    scopes := Height.modify frame.scopes height (·.modifyVariable name change) }

/-- Adds a variable to the innermost scope, in place of one of the same name
there. -/
def insertVariable (frame : Frame) (binding : Variable) : Frame :=
  frame.modifyInnermost (·.insertVariable binding)

/-- Declares a variable in the innermost scope.  No scope of the frame may
have one of the same name. -/
def declareVariable (frame : Frame) (binding : Variable) : Except RuntimeCause Frame :=
  match frame.scopes.reverse.findSome? (·.binding? binding.name) with
  | some earlier =>
      .error (.variableRedefinition binding.name earlier.declarator.span)
  | none => .ok (frame.insertVariable binding)

/-! ## Functions and patterns -/

/-- Fails when a key belongs to a routine of the standard library. -/
def checkRoutine (frame : Frame) (name : String) (arity : Nat) : Except RuntimeCause Unit :=
  let entries := frame.scopes.filterMap (·.declared? name arity)
  if entries.any (·.routine.isSome) then .error (.builtinRedefinition name) else .ok ()

/-- What became of the scopes while a declaration was checked against them. -/
structure Declaration where
  scopes : List Scope
  /-- Whether an earlier declaration was there to be completed. -/
  completed : Bool
  conflict : Option RuntimeCause

/-- Checks a declaration against the entries of the same key, the outermost
scope first, up to the first conflict.  A declaration that overrides takes the
place of every entry that it completes on the way. -/
def completeIn (declared : Callable) : List Scope → Declaration
  | [] => ⟨[], false, none⟩
  | scope :: outer =>
      let outside := completeIn declared outer
      match outside.conflict, scope.declared? declared.name declared.arity with
      | some _, _ | none, none => { outside with scopes := scope :: outside.scopes }
      | none, some entry =>
          match declared.conflict entry with
          | some cause => ⟨scope :: outside.scopes, outside.completed, some cause⟩
          | none =>
              let scope :=
                if declared.overrides then scope.insertEntry ⟨declared, none⟩ else scope
              ⟨scope :: outside.scopes, true, none⟩

/-- Declares a function or pattern.  It completes an earlier declaration in
place when it overrides, and is added to the innermost scope otherwise.  The
frame that is left is given also where the declaration fails. -/
def declareCallable (frame : Frame) (declared : Callable) :
    Except RuntimeCause Unit × Frame :=
  let checked := completeIn declared frame.scopes
  let frame := { frame with scopes := checked.scopes }
  match checked.conflict with
  | some cause => (.error cause, frame)
  | none =>
      if declared.overrides then
        if checked.completed then (.ok (), frame)
        else (.error declared.overrideFailure, frame)
      else (.ok (), frame.modifyInnermost (·.insertEntry ⟨declared, none⟩))

/-- The innermost entry for a name and a number of arguments.  It has to be
implemented. -/
def resolve (frame : Frame) (name : String) (arity : Nat) :
    Except RuntimeCause (Option Entry) :=
  match frame.scopes.findSome? (·.declared? name arity) with
  | none => .ok none
  | some entry =>
      if entry.isImplemented then .ok (some entry)
      else .error entry.callable.notImplemented

end Frame

end Plainspoken
