import Resumable.Tree
import Resumable.Doc.Layout

/-!
# Printing trees

An atom prints as its text. A list prints its elements between parentheses, on
one line if they fit; otherwise every element after the first starts a line of
its own, indented by two more columns.
-/

namespace Resumable.Tree

/-- The width for which trees are printed unless another one is asked for. -/
def defaultWidth : Int := 120

mutual

/-- The document of a tree. -/
def toDoc : Tree → Doc Empty
  | .atom text => .text text
  | .list [] => .text "()"
  | .list (first :: others) =>
      .group (.append (.text "(") (.append first.toDoc (.nest 2 (elementsDoc others))))

/-- The elements after the first, each on a line, and the parenthesis that
closes the list. -/
def elementsDoc : List Tree → Doc Empty
  | [] => .text ")"
  | tree :: trees => .append .line (.append tree.toDoc (elementsDoc trees))

end

/-- Print a tree, fitted to a width. -/
def render (tree : Tree) (width : Int) : String :=
  tree.toDoc.pretty width

end Resumable.Tree
