import Resumable.Source.Expr

/-!
# Statements

A statement may be written in ways that no canonical form exists for; it is kept
as it is, so that the refusal can point at it.
-/

namespace Resumable.Source

/-- A variable in a declaration, with its initial value if it has one. -/
structure Variable where
  name : Name
  initializer : Option Expr
  deriving Repr, Inhabited

mutual

/-- A statement as it is written. -/
inductive Stmt where
  | block (body : List Stmt)
  | declaration (keyword : Keyword) (bindings : List Variable)
  | expression (value : Expr)
  | empty (spot : Option Spot)
  | returning (keyword : Keyword) (value : Option Expr)
  | ifThen (keyword : Keyword) (condition : Expr) (thenPart : Stmt)
  | ifElse (keyword : Keyword) (condition : Expr) (thenPart elsePart : Stmt)
  /-- A statement with at least one label. -/
  | labeled (label : Name) (others : List Name) (body : Stmt)
  | breaking (keyword : Keyword) (label : Option Name)
  | continuing (keyword : Keyword) (label : Option Name)
  | whileLoop (keyword : Keyword) (condition : Expr) (body : Stmt)
  | doLoop (keyword : Keyword) (body : Stmt) (condition : Expr)
  | attempt (keyword : Keyword) (body : List Stmt) (clauses : List CatchClause)
  | attemptFinally (keyword : Keyword) (body : List Stmt) (clauses : List CatchClause)
      (finalizer : List Stmt)
  deriving Repr

/-- A clause that handles an exception. Each of its names may be missing. -/
inductive CatchClause where
  | mk (exceptionType exception stackTrace : Option Name) (body : List Stmt)
  deriving Repr

end

/-- The statements between two braces. -/
abbrev Block := List Stmt

instance : Inhabited Stmt := ⟨.empty none⟩

instance : Inhabited CatchClause := ⟨.mk none none none []⟩

mutual

/-- The spot that identifies a statement best. A block has that of its first
statement. -/
def Stmt.head : Stmt → Option Spot
  | .block body => headOfFirst body
  | .declaration keyword _ => keyword.spot
  | .expression value => value.head
  | .empty spot => spot
  | .returning keyword _ => keyword.spot
  | .ifThen keyword _ _ => keyword.spot
  | .ifElse keyword _ _ _ => keyword.spot
  | .labeled label _ _ => label.spot
  | .breaking keyword _ => keyword.spot
  | .continuing keyword _ => keyword.spot
  | .whileLoop keyword _ _ => keyword.spot
  | .doLoop keyword _ _ => keyword.spot
  | .attempt keyword _ _ => keyword.spot
  | .attemptFinally keyword _ _ _ => keyword.spot

/-- The spot that identifies a block best. -/
def headOfFirst : List Stmt → Option Spot
  | [] => none
  | first :: _ => first.head

end

namespace CatchClause

def exceptionType : CatchClause → Option Name
  | mk type _ _ _ => type

def exception : CatchClause → Option Name
  | mk _ exception _ _ => exception

def stackTrace : CatchClause → Option Name
  | mk _ _ stackTrace _ => stackTrace

def body : CatchClause → Block
  | mk _ _ _ body => body

end CatchClause

end Resumable.Source
