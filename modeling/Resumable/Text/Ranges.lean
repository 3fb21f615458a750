/-!
# Character classes as ranges

A class of characters is a list of closed ranges of code points, ascending and
apart.
-/

namespace Resumable.Text

/-- Whether a code point lies in one of the ranges, which are ascending. -/
def inRanges : List (Nat × Nat) → Nat → Bool
  | [], _ => false
  | (first, last) :: ranges, point =>
      if point < first then false else point ≤ last || inRanges ranges point

end Resumable.Text
