/-!
# Outbursts

A complaint starts with an outburst, put together from three parts that are drawn
at random.
-/

namespace Resumable.Report

/-- The three numbers that were drawn. -/
structure Luck where
  particle : Int
  grumble : Int
  resignation : Int
  deriving Repr, DecidableEq

/-- The text at a number, counted around in a circle. -/
def draw (texts : List String) (number : Int) : String :=
  texts.getD (number % texts.length).toNat ""

def particles : List String :=
  ["Oh, ", "Well, ", "Hmm. ", "", ""]

def grumbles : List String :=
  ["Bother", "Blast", "Botheration", "Confound it", "Drat", "Fiddlesticks", "Gadzooks",
   "Good Grief", "Great Scott", "Heavens", "Nuts", "Rats", "Sufferin' Succotash", "Zounds"]

def resignations : List String :=
  ["That is more than I know how to canonicalize.", "I cannot continue.",
   "This is where the continuations run out.", "Some rewriting may be in order."]

/-- The outburst that was drawn. -/
def outburst (luck : Luck) : String :=
  draw particles luck.particle ++ draw grumbles luck.grumble ++ "! " ++
    draw resignations luck.resignation

end Resumable.Report
