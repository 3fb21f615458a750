import Resumable.Source.Spot

/-!
# Expressions

There are no operators. The calls of some names stand for operators, but that is
not decided here.
-/

namespace Resumable.Source

/-- An expression as it is written. -/
inductive Expr where
  | integer (value : Int) (spot : Option Spot)
  | string (value : String) (spot : Option Spot)
  | identifier (name : Name)
  | property (target : Expr) (name : Name)
  | assignment (left right : Expr)
  | call (name : Name) (arguments : List Expr)
  | methodCall (receiver : Expr) (name : Name) (arguments : List Expr)
  | throwing (keyword : Keyword) (value : Expr)
  deriving Repr, Inhabited

/-- The spot that identifies an expression best. -/
def Expr.head : Expr → Option Spot
  | .integer _ spot => spot
  | .string _ spot => spot
  | .identifier name => name.spot
  | .property _ name => name.spot
  | .assignment left _ => left.head
  | .call name _ => name.spot
  | .methodCall _ name _ => name.spot
  | .throwing keyword _ => keyword.spot

end Resumable.Source
