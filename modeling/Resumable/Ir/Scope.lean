import Resumable.Ir

/-!
# Scope

The names of a program's functions are in scope everywhere, and the parameters and
the two continuations of a function in its body. The name of a value is in scope in
what follows its binding; that of a continuation also in its own body, where its
parameters are in scope. An inner binding may hide an outer one.
-/

namespace Resumable

/-- The names of a list that are not in scope. -/
def outOfScope (scope : List String) (names : List String) : List String :=
  names.filter fun name => !scope.contains name

/-- What is known on a walk through a form: the names that are in scope at the
moment, and the uses of other names that have been met. -/
structure ScopeChecker where
  inScope : List String
  unbound : List String := []
  deriving Repr, DecidableEq

namespace ScopeChecker

/-- Note the names of a list that are not in scope. -/
def use (checker : ScopeChecker) (names : List String) : ScopeChecker :=
  { checker with unbound := checker.unbound ++ outOfScope checker.inScope names }

/-- Walk on with more names in scope, and come back to the scope before. -/
def inside (checker : ScopeChecker) (names : List String)
    (walk : ScopeChecker → ScopeChecker) : ScopeChecker :=
  { walk { checker with inScope := names ++ checker.inScope } with inScope := checker.inScope }

end ScopeChecker

namespace Ir

/-- Walk through a form, and note the uses of names that are not in scope. -/
def visit : Ir → ScopeChecker → ScopeChecker
  | .constant _, checker => checker
  | .function parameters returnTo throwTo body, checker =>
      checker.inside (parameters ++ [returnTo, throwTo]) body.visit
  | .await awaited normalTo errorTo, checker => checker.use [awaited, normalTo, errorTo]
  | .letValue name bound rest, checker => (bound.visit checker).inside [name] rest.visit
  | .letContinuation name parameters body rest, checker =>
      (checker.inside (parameters ++ [name]) body.visit).inside [name] rest.visit
  | .callFunction callee arguments returnTo throwTo, checker =>
      checker.use (callee :: arguments ++ [returnTo, throwTo])
  | .callContinuation callee arguments, checker => checker.use (callee :: arguments)
  | .branch condition thenPart elsePart, checker =>
      elsePart.visit (thenPart.visit (checker.use [condition]))
  | .declaration _ parameters returnTo throwTo body, checker =>
      checker.inside (parameters ++ [returnTo, throwTo]) body.visit

/-- The uses of names that are not in scope, in order of appearance. -/
def unbound (scope : List String) (ir : Ir) : List String :=
  (ir.visit { inScope := scope }).unbound

end Ir

namespace Program

/-- The names of the functions of a program. -/
def functionNames (program : Program) : List String :=
  program.map (·.name)

/-- Walk through the declarations of a program in order. -/
def visit (program : Program) (checker : ScopeChecker) : ScopeChecker :=
  List.foldl (fun checker it => it.toIr.visit checker) checker program

/-- The uses of names that are not in scope in a program, in order of appearance. -/
def unbound (program : Program) : List String :=
  (program.visit { inScope := program.functionNames }).unbound

end Program

end Resumable
