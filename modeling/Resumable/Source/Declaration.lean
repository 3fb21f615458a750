import Resumable.Source.Stmt

/-!
# Declarations

A source text is a list of declarations: functions and top-level variables.
-/

namespace Resumable.Source

/-- A required parameter, or the part of an optional one without its default. -/
structure Binder where
  name : Name
  typeName : Option Name
  deriving Repr, Inhabited

/-- A parameter of a function. -/
inductive Parameter where
  | required (binder : Binder)
  | optional (binder : Binder) (default : Option Expr)
  deriving Repr

/-- The body of a function, with the marker that may stand before it. -/
inductive Body where
  | block (statements : Block) (modifier : Option Keyword)
  | arrow (value : Expr) (modifier : Option Keyword)
  deriving Repr

/-- A function. One that was not read from a text may lack a name. -/
structure Function where
  returnType : Option Name
  name : Option Name
  parameters : List Parameter
  body : Body
  deriving Repr

/-- A declaration at the top level. -/
inductive Declaration where
  | function (function : Function)
  | bindings (keyword : Keyword) (bindings : List Variable)
  deriving Repr

/-- The declarations of a text, in order. -/
abbrev SourceUnit := List Declaration

namespace Parameter

def binder : Parameter → Binder
  | .required binder => binder
  | .optional binder _ => binder

def head (parameter : Parameter) : Option Spot :=
  parameter.binder.name.spot

end Parameter

namespace Body

def modifier : Body → Option Keyword
  | .block _ modifier => modifier
  | .arrow _ modifier => modifier

/-- The spot of the marker if there is one, else that of the body itself. -/
def head (body : Body) : Option Spot :=
  match body.modifier with
  | some keyword => keyword.spot
  | none =>
      match body with
      | .block statements _ => headOfFirst statements
      | .arrow value _ => value.head

end Body

/-- The spot of the name if there is one, else that of the body. -/
def Function.head (function : Function) : Option Spot :=
  match function.name with
  | some name => name.spot
  | none => function.body.head

end Resumable.Source
