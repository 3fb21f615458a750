/-!
# Hints

A confused parser gives a hint if a common mistake can be recognized from the
symbols on top of its stack and from what comes next. Of the hints that match,
the one that accounts for the most symbols is the best guess.

The hints are kept in trees, which are read from the top of the stack downwards.
A search goes down the stack once and follows all of them side by side.
-/

namespace Resumable.Parser

/-- A part of the pattern that a hint has for the stack. -/
inductive Clue where
  | symbol (text : String)
  /-- Any run of symbols, possibly none. -/
  | anything
  deriving Repr, DecidableEq

/-- Advice for a common mistake. -/
structure Hint where
  /-- What is on top of the stack, the last part at the end. -/
  clues : List Clue
  /-- What comes next; anything if nothing is said. -/
  next : Option String
  advice : String
  deriving Repr, DecidableEq

/-! ## Trees of hints -/

/-- What the hints say that agree on the symbols down to some place of the stack. -/
structure AdviceTree where
  /-- The advice of the hint that ends here. -/
  advice : Option String := none
  /-- Whether any run of symbols may stand here. -/
  anything : Bool := false
  /-- What the hints say below each symbol that they name here. -/
  branches : List (String × AdviceTree) := []

/-- Change the tree for a key; without one, an empty tree is put in. -/
def AdviceTree.alter {κ : Type} [DecidableEq κ] (key : κ) (change : AdviceTree → AdviceTree) :
    List (κ × AdviceTree) → List (κ × AdviceTree)
  | [] => [(key, change {})]
  | (k, tree) :: others =>
      if k = key then (k, change tree) :: others else (k, tree) :: alter key change others

/-- Add advice below some clues, the top of the stack first. -/
def AdviceTree.plant (advice : String) : List Clue → AdviceTree → AdviceTree
  | [], tree => { tree with advice := some advice }
  | .anything :: clues, tree => plant advice clues { tree with anything := true }
  | .symbol text :: clues, tree =>
      { tree with branches := alter text (plant advice clues) tree.branches }

/-- The trees to which a symbol leads: the branch for it, and the tree itself if
anything may stand here. -/
def AdviceTree.follow (tree : AdviceTree) (symbol : String) : List AdviceTree :=
  (tree.branches.filterMap fun (text, branch) => if text = symbol then some branch else none) ++
    if tree.anything then [tree] else []

/-- Hints by what comes next. -/
abbrev HintTrees := List (Option String × AdviceTree)

namespace HintTrees

/-- Add a hint. -/
def add (trees : HintTrees) (hint : Hint) : HintTrees :=
  AdviceTree.alter hint.next (.plant hint.advice hint.clues.reverse) trees

/-- The trees of some hints. The first one is for hints that say nothing about what
comes next. -/
def ofHints (hints : List Hint) : HintTrees :=
  hints.foldl add [(none, {})]

/-- The trees of the hints that allow what comes next. -/
def roots (trees : HintTrees) (next : String) : List AdviceTree :=
  trees.filterMap fun (expected, tree) =>
    if expected = none ∨ expected = some next then some tree else none

end HintTrees

/-! ## The search -/

/-- A search on its way down the stack: the trees to which the symbols lead, and
the last advice that was met. -/
structure Search where
  trees : List AdviceTree
  best : Option String

/-- Go down by one symbol. Advice that is met here is better than any from above. -/
def Search.step (search : Search) (symbol : String) : Search :=
  let trees := search.trees.flatMap (·.follow symbol)
  { trees, best := trees.foldl (fun best tree => tree.advice.or best) search.best }

namespace Hint

/-- The advice for the symbols on the stack, the top at the end. -/
def best? (trees : HintTrees) (symbols : List String) (next : String) : Option String :=
  (symbols.reverse.foldl Search.step ⟨trees.roots next, none⟩).best

/-- The common mistakes. -/
def common : List Hint :=
  [ ⟨[.symbol "IF", .symbol "(", .symbol "expr", .symbol ")"], none,
      "The then-branch of an if-statement must be a block in \x7bbraces\x7d."⟩,
    ⟨[.symbol "expr"], some "\x7d", "Probably a missing semicolon after this expression."⟩,
    ⟨[.symbol "expr"], some "name", "Probably a missing semicolon after this expression."⟩,
    ⟨[.symbol "BREAK", .symbol "name"], none, "A break-statement ends with a semicolon."⟩,
    ⟨[.symbol "CONTINUE", .symbol "name"], none, "A continue-statement ends with a semicolon."⟩,
    ⟨[.symbol "TRY", .symbol "block"], none,
      "A try-statement needs a catch clause, a finally block, or both."⟩,
    ⟨[.symbol "name"], some "\x7b",
      "A function declaration needs a (parameter list), even if it is empty."⟩,
    ⟨[.symbol "(", .anything, .symbol "expr"], some ";",
      "I suspect a missing ')' closing parenthesis."⟩ ]

/-- The mark that divides the stack from what comes next. -/
def divider : String := "●"

/-- The hint for a confused parser: the best guess, or else the state it is in. -/
def text (symbols : List String) (next : String) : String :=
  match best? (.ofHints common) symbols next with
  | some advice => "Here's my best guess:\n\t" ++ advice
  | none => "Parser state:\n\t" ++ " ".intercalate (symbols ++ [divider, next])

end Hint

end Resumable.Parser
