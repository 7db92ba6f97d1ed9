/-!
# Sets of characters given by their boundaries

A property of characters holds on runs of neighbouring code points.  It is
stored as the increasing list of the points at which it begins to hold and
ceases to hold in turn.
-/

namespace Plainspoken

namespace Character

/-- Whether a code point lies in a run of the set with these boundaries.  Every
boundary at or below the code point turns membership over. -/
def inRuns : List Nat → Nat → Bool
  | [], _ => false
  | boundary :: boundaries, codePoint =>
      if codePoint < boundary then false else !inRuns boundaries codePoint

end Character

end Plainspoken
