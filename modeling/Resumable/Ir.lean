import Resumable.Tree.Printer

/-!
# The continuation-passing representation

Control flow is explicit: every call names the continuation for a normal return
and the one for a throw, and suspension is a value. There are values, which can be
bound to names; expressions, which go somewhere; and declarations of functions.
Nothing forbids a form in a place where it does not belong; the checkers tell.
-/

namespace Resumable

/-- A value, an expression, or the declaration of a function. -/
inductive Ir where
  | constant (value : Int)
  | function (parameters : List String) (returnTo throwTo : String) (body : Ir)
  /-- Suspend on a value; resume at one continuation or the other. -/
  | await (awaited normalTo errorTo : String)
  | letValue (name : String) (bound rest : Ir)
  | letContinuation (name : String) (parameters : List String) (body rest : Ir)
  | callFunction (callee : String) (arguments : List String) (returnTo throwTo : String)
  | callContinuation (callee : String) (arguments : List String)
  | branch (condition : String) (thenPart elsePart : Ir)
  | declaration (name : String) (parameters : List String) (returnTo throwTo : String) (body : Ir)
  deriving Repr, DecidableEq, Inhabited

/-- The declaration of a function. -/
structure FunctionDecl where
  name : String
  parameters : List String
  returnTo : String
  throwTo : String
  body : Ir
  deriving Repr, DecidableEq, Inhabited

/-- A program: the functions it declares. -/
abbrev Program := List FunctionDecl

/-- A declaration as a form among the others. -/
def FunctionDecl.toIr (it : FunctionDecl) : Ir :=
  .declaration it.name it.parameters it.returnTo it.throwTo it.body

/-- A short description of a declaration. -/
def FunctionDecl.describe (it : FunctionDecl) : String :=
  "\x7bFunDecl " ++ it.name ++ "\x7d"

namespace Ir

/-- A short description, for the forms that have one. -/
def describe? : Ir → Option String
  | .constant value => some ("Constant(" ++ value.repr ++ ")")
  | _ => none

/-- The tree that shows a form. -/
def toTree : Ir → Tree
  | .constant value => .atoms ["Constant", value.repr]
  | .function parameters returnTo throwTo body =>
      .list [.atom "Fun", .atoms parameters, .atom returnTo, .atom throwTo, body.toTree]
  | .await awaited normalTo errorTo => .atoms ["Await", awaited, normalTo, errorTo]
  | .letValue name bound rest =>
      .list [.atom "LetVal", .atom name, bound.toTree, rest.toTree]
  | .letContinuation name parameters body rest =>
      .list [.atom "LetCont", .atom name, .atoms parameters, body.toTree, rest.toTree]
  | .callFunction callee arguments returnTo throwTo =>
      .list [.atom "CallFun", .atom callee, .atoms arguments, .atom returnTo, .atom throwTo]
  | .callContinuation callee arguments =>
      .list [.atom "CallCont", .atom callee, .atoms arguments]
  | .branch condition thenPart elsePart =>
      .list [.atom "If", .atom condition, thenPart.toTree, elsePart.toTree]
  | .declaration name parameters returnTo throwTo body =>
      .list [.atom "FunDecl", .atom name, .atoms parameters, .atom returnTo, .atom throwTo,
        body.toTree]

end Ir

namespace Program

/-- The tree that shows a program. -/
def toTree (program : Program) : Tree :=
  .list (program.map fun it => it.toIr.toTree)

/-- The text of a program, fitted to a width. -/
def render (program : Program) (width : Int) : String :=
  program.toTree.render width

end Program

end Resumable
