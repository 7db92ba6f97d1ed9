/-!
# Stacks addressed by height

A stack is a list whose first element is the innermost one.  Its elements are
addressed by height: the outermost element has height zero, and the height of
an element does not change while others are put on top of it.
-/

namespace Plainspoken

namespace Height

variable {α : Type}

def get? (stack : List α) (height : Nat) : Option α :=
  if height < stack.length then stack[stack.length - 1 - height]? else none

def modify (stack : List α) (height : Nat) (change : α → α) : List α :=
  if height < stack.length then
    List.modify stack (stack.length - 1 - height) change
  else stack

@[simp]
theorem get?_nil (height : Nat) : get? ([] : List α) height = none := by
  simp [get?]

/-- The innermost element is as high as there are elements below it. -/
@[simp]
theorem get?_cons_length (top : α) (stack : List α) :
    get? (top :: stack) stack.length = some top := by
  simp [get?]

/-- Putting an element on top leaves the heights below it alone. -/
theorem get?_cons_of_lt {top : α} {stack : List α} {height : Nat}
    (below : height < stack.length) :
    get? (top :: stack) height = get? stack height := by
  have position : (top :: stack).length - 1 - height = stack.length - 1 - height + 1 := by
    simp only [List.length_cons]
    omega
  have within : height < (top :: stack).length := by
    simp only [List.length_cons]
    omega
  rw [get?, get?, if_pos within, if_pos below, position, List.getElem?_cons_succ]

@[simp]
theorem length_modify (stack : List α) (height : Nat) (change : α → α) :
    (modify stack height change).length = stack.length := by
  unfold modify
  split <;> simp

end Height

end Plainspoken
