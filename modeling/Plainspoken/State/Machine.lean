import Plainspoken.Diagnostic.Event
import Plainspoken.State.Library

/-!
# The machine

A program runs on a machine: a stack of frames, the nesting of the nodes being
evaluated, the value evaluated last, and what has been emitted.

A name is looked up in the current frame, the innermost scope first, and then
in the frame of the program.  A reference parameter is read and written at the
site it refers to.
-/

namespace Plainspoken

/-- The stack of frames.  There is always a current one. -/
structure CallStack where
  current : Frame
  /-- The frames below the current one, the innermost first. -/
  callers : List Frame

namespace CallStack

/-- The frame of the program itself. -/
def globalFrame (stack : CallStack) : Frame :=
  stack.callers.getLastD stack.current

def height (stack : CallStack) : Nat :=
  stack.callers.length

def frames (stack : CallStack) : List Frame :=
  stack.current :: stack.callers

def frame? (stack : CallStack) (height : Nat) : Option Frame :=
  if height = stack.height then some stack.current
  else Height.get? stack.callers height

def push (stack : CallStack) (frame : Frame) : CallStack :=
  ⟨frame, stack.frames⟩

/-- Takes the current frame off; the frame of the program stays. -/
def pop (stack : CallStack) : CallStack :=
  match stack.callers with
  | [] => stack
  | caller :: callers => ⟨caller, callers⟩

def modifyCurrent (stack : CallStack) (change : Frame → Frame) : CallStack :=
  { stack with current := change stack.current }

def binding? (stack : CallStack) (site : Site) : Option Variable :=
  (stack.frame? site.frame).bind (·.binding? site.scope site.name)

def modifyVariable (stack : CallStack) (site : Site) (change : Variable → Variable) :
    CallStack :=
  let inFrame (frame : Frame) := frame.modifyVariable site.scope site.name change
  if site.frame = stack.height then stack.modifyCurrent inFrame
  else { stack with callers := Height.modify stack.callers site.frame inFrame }

/-- Where a name is declared, as seen from the current frame. -/
def find? (stack : CallStack) (name : String) : Option Site :=
  match stack.current.find? name with
  | some scope => some ⟨stack.height, scope, name⟩
  | none => (stack.globalFrame.find? name).map (⟨0, ·, name⟩)

/-- Where what a variable holds is stored: for a reference parameter the site
it refers to, for all others their own site. -/
def owner (stack : CallStack) (site : Site) : Site :=
  ((stack.binding? site).bind (·.reference)).getD site

end CallStack

/-- The state of a running program. -/
structure Machine where
  stack : CallStack
  /-- How many nodes are being evaluated inside one another. -/
  depth : Nat
  /-- The value evaluated last; a function that ends without saying its result
  yields it. -/
  lastValue : Value
  emitted : Transcript

namespace Machine

/-- The name of the frame of the program itself. -/
def mainName : String := "Main Program"

/-- The frame of the program itself.  It counts as a call, so that the program
may return, and has the standard library in a scope of its own. -/
def mainFrame : Frame :=
  ((Frame.start mainName .firstCharacter .nothing).setFlags .onlyCall).pushScope
    Routine.library

/-- The machine before anything has run. -/
def initial : Machine where
  stack := ⟨mainFrame, []⟩
  depth := 0
  lastValue := .nothing
  emitted := #[]

/-- Forgets everything but what has been emitted. -/
def reset (machine : Machine) : Machine :=
  { initial with emitted := machine.emitted }

def current (machine : Machine) : Frame :=
  machine.stack.current

def modifyCurrent (machine : Machine) (change : Frame → Frame) : Machine :=
  { machine with stack := machine.stack.modifyCurrent change }

/-- Records the place that the current frame has reached. -/
def mark (machine : Machine) (span : Span) : Machine :=
  machine.modifyCurrent ({ · with span := span })

def pushScope (machine : Machine) (scope : Scope) : Machine :=
  machine.modifyCurrent (·.pushScope scope)

def popScope (machine : Machine) : Machine :=
  machine.modifyCurrent (·.popScope)

def setFlags (machine : Machine) (flags : Flags) : Machine :=
  machine.modifyCurrent (·.setFlags flags)

def unsetFlags (machine : Machine) (flags : Flags) : Machine :=
  machine.modifyCurrent (·.unsetFlags flags)

def pushFrame (machine : Machine) (frame : Frame) : Machine :=
  { machine with stack := machine.stack.push frame }

def popFrame (machine : Machine) : Machine :=
  { machine with stack := machine.stack.pop }

def emit (machine : Machine) (emission : Emission) : Machine :=
  { machine with emitted := machine.emitted.push emission }

def store (machine : Machine) (site : Site) (value : Value) : Machine :=
  { machine with stack := machine.stack.modifyVariable site (·.store value) }

end Machine

end Plainspoken
