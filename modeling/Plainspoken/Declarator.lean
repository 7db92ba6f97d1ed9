import Plainspoken.Span
import Plainspoken.Value

/-!
# Declarators

The static description of a binding: whether it may be assigned, its type, its
name and where it was written.
-/

namespace Plainspoken

/-- The form `[MUTABLE] TYPE name`, with its position. -/
structure Declarator where
  span : Span
  isMutable : Bool
  type : ValueType
  name : String
  deriving DecidableEq

namespace Declarator

/-- Whether two declarators agree in all but their position. -/
def agrees (first second : Declarator) : Bool :=
  first.isMutable == second.isMutable && first.type == second.type &&
    first.name == second.name

end Declarator

end Plainspoken
