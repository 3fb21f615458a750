/-!
# Spots in a source text

Positions count characters from the start of the text. A phrase that was built
without a text has no spots.
-/

namespace Resumable.Source

/-- The piece of a text from `start` up to `stop`, the end not included. -/
structure Spot where
  start : Nat
  stop : Nat
  deriving Repr, DecidableEq, Inhabited

/-- The occurrence of a name. -/
structure Name where
  text : String
  spot : Option Spot
  deriving Repr, DecidableEq, Inhabited

/-- The occurrence of a reserved word, or of a marker made of one. -/
structure Keyword where
  text : String
  spot : Option Spot
  deriving Repr, DecidableEq, Inhabited

end Resumable.Source
