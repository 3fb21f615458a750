import Resumable.Canon.Classifier
import Resumable.Text.Numeral

/-!
# Canonicalizing declarations

A declaration has a canonical form as a whole or not at all. The first violation,
in the order of reading, is the one that is reported, unless an integer before it has
more digits than can be shown.

Some conventions carry meaning: all locals are declared, without values, in the
first statement of the body; the calls of `await`, `yield` and `yieldStar` are
operators; a `return` without a value ends a generator.
-/

namespace Resumable.Canon

open Source
open Text (DigitLimit)

/-! ## Expressions -/

/-- The operator that a call of this name stands for. -/
def operator? : String → Option (Node → Node)
  | "await" => some .await
  | "yield" => some .yield
  | "yieldStar" => some .yieldStar
  | _ => none

/-- Why canonicalizing stops. -/
inductive Halt where
  | violation (violation : Violation)
  /-- An integer has too many digits to be shown. -/
  | overlong (overlong : Text.Overlong)
  deriving Repr

/-- Stop and blame a phrase. -/
def blame (reason : Reason) (phrase : Phrase) : Except Halt α :=
  .error (.violation ⟨reason, some phrase⟩)

/-- Stop and blame an expression. -/
def blameExpr (reason : Reason) (expr : Expr) : Except Halt α :=
  blame reason (.expr expr)

mutual

/-- The canonical form of an expression. -/
def canonExpr (limit : DigitLimit) : Expr → Except Halt Node
  | .integer value _ => return .constant (← (limit.shown value).mapError .overlong)
  | .string value spot => blameExpr .stringLiteral (.string value spot)
  | .identifier name => .ok (.reference name.text)
  | .property target name => blameExpr .propertyAccess (.property target name)
  | .assignment (.identifier name) right => return .assignment name.text (← canonExpr limit right)
  | .assignment left right => blameExpr .compoundTarget (.assignment left right)
  | .call name arguments =>
      match operator? name.text with
      | none => return .call name.text (← canonExprs limit arguments)
      | some operator =>
          match arguments with
          | [argument] => return operator (← canonExpr limit argument)
          | _ => blameExpr (.arity name.text) (.call name arguments)
  | .methodCall receiver name arguments =>
      blameExpr .receiver (.methodCall receiver name arguments)
  | .throwing _ value => return .throwing (← canonExpr limit value)

/-- The canonical forms of some expressions. -/
def canonExprs (limit : DigitLimit) : List Expr → Except Halt (List Node)
  | [] => .ok []
  | expr :: exprs => return (← canonExpr limit expr) :: (← canonExprs limit exprs)

end

/-! ## Statements -/

/-- An expression as a statement. A yield is a statement by itself. -/
def statementOf : Node → Node
  | .yield value => .yield value
  | .yieldStar value => .yieldStar value
  | node => .expression node

/-- The name for the exception that a clause handles, if that is all it asks for. -/
def exceptionOf (clause : CatchClause) : Except Halt String :=
  match clause.exceptionType, clause.exception, clause.stackTrace with
  | some _, _, _ => blame .exceptionType (.catchClause clause)
  | none, none, _ => blame .missingException (.catchClause clause)
  | none, some _, some stackTrace => blame .stackTrace (.name stackTrace)
  | none, some exception, none => .ok exception.text

/-- Stop and blame a statement. -/
def blameStmt (reason : Reason) (stmt : Stmt) : Except Halt α :=
  blame reason (.stmt stmt)

mutual

/-- The canonical form of a statement. -/
def canonStmt (limit : DigitLimit) : Stmt → Except Halt Node
  | .block body => return .block (← canonStmts limit body)
  | .declaration keyword bindings =>
      blameStmt .lateDeclaration (.declaration keyword bindings)
  | .expression value => return statementOf (← canonExpr limit value)
  | .empty spot => blameStmt .emptyStatement (.empty spot)
  | .returning _ none => .ok .yieldBreak
  | .returning _ (some value) => return .returning (← canonExpr limit value)
  | .ifThen keyword condition thenPart =>
      blameStmt .missingElse (.ifThen keyword condition thenPart)
  | .ifElse _ condition thenPart elsePart =>
      return .conditional (← canonExpr limit condition) (← canonStmt limit thenPart)
        (← canonStmt limit elsePart)
  | .labeled _ (second :: _) _ => blame .multipleLabels (.label second)
  | .labeled label [] (.whileLoop _ condition body) =>
      return .loop (some label.text) (← canonExpr limit condition) (← canonStmt limit body)
  | .labeled label [] body => return .labeled label.text (← canonStmt limit body)
  | .breaking keyword none => blameStmt .unlabeledBreak (.breaking keyword none)
  | .breaking _ (some label) => .ok (.breaking label.text)
  | .continuing keyword none => blameStmt .unlabeledContinue (.continuing keyword none)
  | .continuing _ (some label) => .ok (.continuing label.text)
  | .whileLoop _ condition body =>
      return .loop none (← canonExpr limit condition) (← canonStmt limit body)
  | .doLoop keyword body condition => blameStmt .doLoop (.doLoop keyword body condition)
  | .attempt keyword body [] => blameStmt .bareTry (.attempt keyword body [])
  | .attempt _ body [.mk type exception trace handler] => do
      let body ← canonStmts limit body
      let exception ← exceptionOf (.mk type exception trace handler)
      return .tryCatch (.block body) exception (.block (← canonStmts limit handler))
  | .attempt _ _ (_ :: second :: _) => blame .multipleClauses (.catchClause second)
  | .attemptFinally _ body [] finalizer =>
      return .tryFinally (.block (← canonStmts limit body)) (.block (← canonStmts limit finalizer))
  | .attemptFinally keyword body [clause] finalizer =>
      blameStmt .catchAndFinally (.attemptFinally keyword body [clause] finalizer)
  | .attemptFinally _ _ (_ :: second :: _) _ => blame .multipleClauses (.catchClause second)
termination_by structural stmt => stmt

/-- The canonical forms of some statements. -/
def canonStmts (limit : DigitLimit) : List Stmt → Except Halt (List Node)
  | [] => .ok []
  | stmt :: stmts => return (← canonStmt limit stmt) :: (← canonStmts limit stmts)
termination_by structural stmts => stmts

end

/-- The canonical form of a block. -/
def canonBlock (limit : DigitLimit) (body : Block) : Except Halt Node :=
  return .block (← canonStmts limit body)

/-! ## Declarations -/

/-- The name of a parameter. -/
def canonParameter : Parameter → Except Halt String
  | .required binder => .ok binder.name.text
  | .optional binder default => blame .optionalParameter (.parameter (.optional binder default))

/-- The name of a local. -/
def canonLocal (item : Variable) : Except Halt String :=
  match item.initializer with
  | none => .ok item.name.text
  | some _ => blame .initializedLocal (.declared item)

/-- The variables that the first statement declares, and the other statements. -/
def hoist : Block → List Variable × Block
  | .declaration _ bindings :: statements => (bindings, statements)
  | statements => ([], statements)

/-- A function in canonical form. -/
structure Procedure where
  kind : FunctionKind
  name : String
  parameters : List String
  locals : List String
  body : Node
  deriving Repr

namespace Procedure

/-- The node of a function. -/
def toNode (it : Procedure) : Node :=
  .function it.kind it.name it.parameters it.locals it.body

/-- The tree of a function. -/
def toTree (it : Procedure) : Tree :=
  it.toNode.toTree

end Procedure

/-- Why a declaration has no canonical form. -/
inductive Failure where
  | refused (refusal : Refusal)
  /-- The classifier gave a text that is no tag of a function. -/
  | misshapen (fault : Misshapen)
  /-- An integer has too many digits to be shown. -/
  | overlong (overlong : Text.Overlong)
  deriving Repr

/-- What is left to be done when all parts of a function are canonical: the text
that the classifier gave is read as the kind of the function. -/
abbrev Draft := String × (FunctionKind → Procedure)

/-- A function that is canonical but for its kind. -/
def draftFunction (limit : DigitLimit) (classify : Classifier) (function : Function) :
    Except Halt Draft := do
  let some name := function.name
    | blame .unnamedFunction (.declaration (.function function))
  let tag ← (classify function name).mapError .violation
  let parameters ← function.parameters.mapM canonParameter
  let .block block _ := function.body
    | blame .arrowBody (.body function.body)
  let (bindings, statements) := hoist block
  let locals ← bindings.mapM canonLocal
  let body ← canonBlock limit statements
  return (tag, fun kind => ⟨kind, name.text, parameters, locals, body⟩)

/-- The canonical form of a declaration, where numerals are shown within a limit. -/
def canonDeclarationWithin (limit : DigitLimit) (classify : Classifier) :
    Declaration → Except Failure Procedure
  | .bindings keyword bindings =>
      .error (.refused
        ⟨⟨.topLevelVariable, some (.declaration (.bindings keyword bindings))⟩, none⟩)
  | .function function =>
      match draftFunction limit classify function with
      | .error (.violation violation) =>
          .error (.refused ⟨violation, function.name.map (·.text)⟩)
      | .error (.overlong overlong) => .error (.overlong overlong)
      | .ok (tag, procedure) =>
          match FunctionKind.ofText? tag with
          | some kind => .ok (procedure kind)
          | none => .error (.misshapen ⟨.notFunctionTag, .atom tag⟩)

/-- The canonical form of a declaration, where numerals of any length are shown. -/
def canonDeclaration (classify : Classifier) : Declaration → Except Failure Procedure :=
  canonDeclarationWithin none classify

end Resumable.Canon
