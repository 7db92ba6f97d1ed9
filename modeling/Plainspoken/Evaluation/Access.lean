import Plainspoken.Evaluation.Action

/-!
# Reading and writing variables

Names are resolved on the machine.  What is stored under a name is read and
written where its owner lives.
-/

namespace Plainspoken

/-- Whether a name is bound by the language itself. -/
def isReservedName (name : String) : Bool :=
  name == pipeName || name == subjectName

/-- Why a name that nothing declares cannot be used. -/
def undefinedName (name : String) : RuntimeCause :=
  if name == pipeName then .pipeOutsidePipeline
  else if name == subjectName then .subjectOutsideMatch
  else .undefinedVariable name

namespace Machine

/-- The owner of what is stored under a name, and its variable. -/
def ownerOf? (machine : Machine) (name : String) : Option (Site × Variable) := do
  let site ← machine.stack.find? name
  let owner := machine.stack.owner site
  return (owner, ← machine.stack.binding? owner)

def valueOf (machine : Machine) (name : String) : Except RuntimeCause Value :=
  match machine.ownerOf? name with
  | none => .error (undefinedName name)
  | some (_, binding) =>
      if binding.initialized then .ok binding.value
      else .error (.uninitializedVariable name binding.declarator.span)

/-- The site that an argument names, when it is the plain name of a variable
that may be assigned. -/
def argumentSite? (machine : Machine) (argument : Expression) : Option Site := do
  let name ← argument.name?
  let site ← machine.stack.find? name
  let binding ← machine.stack.binding? site
  if binding.declarator.isMutable then some (machine.stack.owner site) else none

end Machine

namespace Stepping

variable {M : Type → Type} [Stepping M]

@[inline]
def valueOf (name : String) : M Value := do
  ofExcept (← read (·.valueOf name))

/-- Stores a value at a site, where a variable has to live. -/
@[inline]
def storeAt (site : Site) (value : Value) : M Unit := do
  if ← read fun machine => (machine.stack.binding? site).isSome then
    update (·.store site value)
  else
    fail (undefinedName site.name)

/-- Counts one more level of nesting, at the node of a given place. -/
@[inline]
def enter (maxDepth : Nat) (span : Span) : M Unit := do
  update fun machine => { machine with depth := machine.depth + 1 }
  if ← read fun machine => decide (maxDepth ≤ machine.depth) then
    fail (.stackOverflow span)

/-- Counts one level of nesting less. -/
@[inline]
def leave : M Unit :=
  update fun machine => { machine with depth := machine.depth - 1 }

end Stepping

end Plainspoken
