import Mathlib
import Resumable.Grammar.Meaning

/-!
# The leaves of what is parsed

Names and literals are the leaves of source code. The action of each production passes
on the leaves of what it is given, in the same order. So the leaves of what a derivation
means are the names and literals among the tokens it derives.
-/

namespace Resumable.Source

/-! ## Leaves of source code -/

/-- A name or a literal in source code. -/
inductive Leaf where
  | name (it : Name)
  | integer (value : Int) (spot : Option Spot)
  | string (value : String) (spot : Option Spot)
  deriving Repr, DecidableEq

mutual

/-- The leaves of an expression, in the order in which they are written. -/
def Expr.leaves : Expr → List Leaf
  | .integer value spot => [.integer value spot]
  | .string value spot => [.string value spot]
  | .identifier name => [.name name]
  | .property target name => target.leaves ++ [.name name]
  | .assignment left right => left.leaves ++ right.leaves
  | .call name arguments => .name name :: leavesOfExprs arguments
  | .methodCall receiver name arguments =>
      receiver.leaves ++ .name name :: leavesOfExprs arguments
  | .throwing _ value => value.leaves

/-- The leaves of some expressions. -/
def leavesOfExprs : List Expr → List Leaf
  | [] => []
  | expr :: exprs => expr.leaves ++ leavesOfExprs exprs

end

/-- The leaves of a value that may be missing. -/
def leavesOfValue : Option Expr → List Leaf
  | none => []
  | some value => value.leaves

/-- The leaves of names that may be missing. -/
def leavesOfNames (names : List (Option Name)) : List Leaf :=
  names.flatMap fun name => name.toList.map .name

/-- The leaves of a variable, its name first. -/
def Variable.leaves (it : Variable) : List Leaf :=
  .name it.name :: leavesOfValue it.initializer

mutual

/-- The leaves of a statement, in the order in which they are written. -/
def Stmt.leaves : Stmt → List Leaf
  | .block body => leavesOfStmts body
  | .declaration _ bindings => bindings.flatMap Variable.leaves
  | .expression value => value.leaves
  | .empty _ => []
  | .returning _ value => leavesOfValue value
  | .ifThen _ condition thenPart => condition.leaves ++ thenPart.leaves
  | .ifElse _ condition thenPart elsePart =>
      condition.leaves ++ thenPart.leaves ++ elsePart.leaves
  | .labeled label others body => (label :: others).map .name ++ body.leaves
  | .breaking _ label => leavesOfNames [label]
  | .continuing _ label => leavesOfNames [label]
  | .whileLoop _ condition body => condition.leaves ++ body.leaves
  | .doLoop _ body condition => body.leaves ++ condition.leaves
  | .attempt _ body clauses => leavesOfStmts body ++ leavesOfClauses clauses
  | .attemptFinally _ body clauses finalizer =>
      leavesOfStmts body ++ leavesOfClauses clauses ++ leavesOfStmts finalizer

/-- The leaves of some statements. -/
def leavesOfStmts : List Stmt → List Leaf
  | [] => []
  | stmt :: stmts => stmt.leaves ++ leavesOfStmts stmts

/-- The leaves of a catch clause: its type, its exception, its stack trace, its body. -/
def CatchClause.leaves : CatchClause → List Leaf
  | .mk type exception trace body =>
      leavesOfNames [type, exception, trace] ++ leavesOfStmts body

/-- The leaves of some catch clauses. -/
def leavesOfClauses : List CatchClause → List Leaf
  | [] => []
  | clause :: clauses => clause.leaves ++ leavesOfClauses clauses

end

/-- The leaves of a binder, its type first. -/
def Binder.leaves (it : Binder) : List Leaf :=
  leavesOfNames [it.typeName, it.name]

/-- The leaves of a parameter, its default last. -/
def Parameter.leaves : Parameter → List Leaf
  | .required binder => binder.leaves
  | .optional binder default => binder.leaves ++ leavesOfValue default

/-- The leaves of the body of a function. -/
def Body.leaves : Body → List Leaf
  | .block statements _ => leavesOfStmts statements
  | .arrow value _ => value.leaves

/-- The leaves of a function: its type, its name, its parameters, its body. -/
def Function.leaves (it : Function) : List Leaf :=
  leavesOfNames [it.returnType, it.name] ++ it.parameters.flatMap Parameter.leaves ++
    it.body.leaves

/-- The leaves of a declaration, in the order in which they are written. -/
def Declaration.leaves : Declaration → List Leaf
  | .function it => it.leaves
  | .bindings _ items => items.flatMap Variable.leaves

theorem leavesOfExprs_eq (exprs : List Expr) : leavesOfExprs exprs = exprs.flatMap Expr.leaves := by
  induction exprs with
  | nil => rfl
  | cons expr exprs ih => rw [leavesOfExprs, ih, List.flatMap_cons]

theorem leavesOfStmts_eq (stmts : List Stmt) : leavesOfStmts stmts = stmts.flatMap Stmt.leaves := by
  induction stmts with
  | nil => rfl
  | cons stmt stmts ih => rw [leavesOfStmts, ih, List.flatMap_cons]

theorem leavesOfClauses_eq (clauses : List CatchClause) :
    leavesOfClauses clauses = clauses.flatMap CatchClause.leaves := by
  induction clauses with
  | nil => rfl
  | cons clause clauses ih => rw [leavesOfClauses, ih, List.flatMap_cons]

end Resumable.Source

namespace Resumable

open Source (Leaf)

/-- The leaf that a token of a kind means, if it means one. -/
def Grammar.Terminal.leaf? (kind : Grammar.Terminal) (token : Token) : Option Leaf :=
  match kind with
  | .name => some (.name token.name)
  | .integer => some (.integer (Token.number token.text) (some token.spot))
  | .shortString =>
      some (.string (String.ofList (token.text.drop 1).dropLast) (some token.spot))
  | _ => none

/-- The name or literal that a token is, if it is one. -/
def Token.leaf? (token : Token) : Option Leaf :=
  token.kind.leaf? token

theorem Token.filterMap_leaf? (token : Token) :
    [token].filterMap Token.leaf? = token.leaf?.toList := by
  cases h : token.leaf? with
  | none => simp [h]
  | some leaf => simp [h]

end Resumable

namespace Resumable.Grammar

open Source

/-! ## Leaves of meanings -/

/-- The leaves of what a phrase means. -/
def Nonterminal.leaves : (phrase : Nonterminal) → phrase.Meaning → List Leaf
  | .unit => fun (unit : List Declaration) => unit.flatMap Declaration.leaves
  | .declarations => fun (declarations : Array Declaration) =>
      declarations.toList.flatMap Declaration.leaves
  | .declaration => Declaration.leaves
  | .functionDeclaration => Function.leaves
  | .formals | .parameterSection | .optionals => fun (parameters : List Parameter) =>
      parameters.flatMap Parameter.leaves
  | .optionalParameters => fun (parameters : Array Parameter) =>
      parameters.toList.flatMap Parameter.leaves
  | .optionalParameter => Parameter.leaves
  | .parameters => fun (binders : Array Binder) => binders.toList.flatMap Binder.leaves
  | .parameter => Binder.leaves
  | .body => Body.leaves
  | .modifier => fun _ => []
  | .statements => fun (stmts : Array Stmt) => leavesOfStmts stmts.toList
  | .statement | .unlabeled => Stmt.leaves
  | .labels => fun (labels : Name × Array Name) => (labels.1 :: labels.2.toList).map .name
  | .label => fun label => [.name label]
  | .block => leavesOfStmts
  | .bindings => fun (bindings : Array Variable) => bindings.toList.flatMap Variable.leaves
  | .binding => Variable.leaves
  | .clauses => fun (clauses : Array CatchClause) => leavesOfClauses clauses.toList
  | .clause => CatchClause.leaves
  | .arguments | .argumentSection => leavesOfExprs
  | .expressions => fun (exprs : Array Expr) => leavesOfExprs exprs.toList
  | .expr | .operand | .primary => Expr.leaves

/-- The leaves of what a symbol means. -/
def Symbol.leaves : (symbol : Symbol) → symbol.Meaning → List Leaf
  | .terminal kind => fun token => (kind.leaf? token).toList
  | .nonterminal phrase => phrase.leaves

/-- The leaves of what the symbols of a list mean, from left to right. -/
def leavesOfEach : (symbols : List Symbol) → Meanings symbols → List Leaf
  | [], _ => []
  | symbol :: symbols, meanings => symbol.leaves meanings.1 ++ leavesOfEach symbols meanings.2

/-! ## Actions -/

theorem append_two (first second : List Leaf) : first ++ second = first ++ (second ++ []) := by
  rw [List.append_nil]

theorem append_three (first second third : List Leaf) :
    first ++ second ++ third = first ++ (second ++ (third ++ [])) := by
  rw [List.append_nil, List.append_assoc]

theorem flatMap_push {α : Type} (items : Array α) (item : α) (leaves : α → List Leaf) :
    (items.push item).toList.flatMap leaves =
      items.toList.flatMap leaves ++ (leaves item ++ []) := by
  rw [Array.toList_push, List.flatMap_append, List.flatMap_singleton, List.append_nil]

theorem leavesOfExprs_push (exprs : Array Expr) (expr : Expr) :
    leavesOfExprs (exprs.push expr).toList = leavesOfExprs exprs.toList ++ (expr.leaves ++ []) := by
  rw [leavesOfExprs_eq, leavesOfExprs_eq, flatMap_push]

theorem leavesOfStmts_push (stmts : Array Stmt) (stmt : Stmt) :
    leavesOfStmts (stmts.push stmt).toList = leavesOfStmts stmts.toList ++ (stmt.leaves ++ []) := by
  rw [leavesOfStmts_eq, leavesOfStmts_eq, flatMap_push]

theorem leavesOfClauses_push (clauses : Array CatchClause) (clause : CatchClause) :
    leavesOfClauses (clauses.push clause).toList =
      leavesOfClauses clauses.toList ++ (clause.leaves ++ []) := by
  rw [leavesOfClauses_eq, leavesOfClauses_eq, flatMap_push]

theorem map_name_push (first : Name) (others : Array Name) (another : Name) :
    (first :: (others.push another).toList).map Leaf.name =
      (first :: others.toList).map Leaf.name ++ [.name another] := by
  rw [Array.toList_push, ← List.cons_append, List.map_append, List.map_singleton]

theorem requiredParameters_leaves (binders : Array Binder) :
    (requiredParameters binders).flatMap Parameter.leaves = binders.toList.flatMap Binder.leaves :=
  List.flatMap_map ..

theorem requiredAndOptional_leaves (binders : Array Binder) (parameters : List Parameter) :
    (requiredParameters binders ++ parameters).flatMap Parameter.leaves =
      binders.toList.flatMap Binder.leaves ++ (parameters.flatMap Parameter.leaves ++ []) := by
  rw [List.flatMap_append, requiredParameters_leaves, List.append_nil]

/-- The action of a production passes on the leaves of what it is given, each once and in
the same order. -/
theorem Production.leaves_action (production : Production) (meanings : Meanings production.rhs) :
    production.lhs.leaves (production.action meanings) = leavesOfEach production.rhs meanings := by
  cases production with
  -- no part has leaves, or a part that is a token is the only one that has
  | noDeclarations | noParameters | noStatements | noArguments
  | untypedParameter | typedParameter | optionalPlain
  | asyncModifier | asyncStarModifier | syncStarModifier
  | label | emptyStatement | bareReturn | bareBreak | labeledBreak | bareContinue
  | labeledContinue | plainBinding | property | integer | string | identifier
  | firstOptional | firstParameter | firstLabel | firstBinding | firstClause
  | firstExpression => rfl
  -- the leaves of the last part come last
  | unitOf | functionItself | topLevelVariables | formals | optionalOnly | optionals
  | blockBody | modifiedBlockBody | arrowBody | modifiedArrowBody
  | plainStatement | blockStatement | variableStatement | expressionStatement | returnValue
  | block | initializedBinding | catchClause | catchWithTrace | onClause | onCatchClause
  | arguments | someArguments | assignment | throwing | plainOperand | plainPrimary | call
  | parenthesized => exact (List.append_nil _).symm
  | untypedFunction | typedFunction | optionalDefault | labeledStatement | ifThen | whileLoop
  | doLoop | tryCatch | methodCall => exact append_two _ _
  | ifElse | tryFinally | tryCatchFinally | propertyAssignment => exact append_three _ _ _
  | moreDeclarations | moreOptionals | moreParameters | moreBindings => exact flatMap_push _ _ _
  | moreStatements => exact leavesOfStmts_push _ _
  | moreClauses => exact leavesOfClauses_push _ _
  | moreExpressions => exact leavesOfExprs_push _ _
  | moreLabels => exact map_name_push _ _ _
  | requiredOnly => exact (requiredParameters_leaves _).trans (List.append_nil _).symm
  | requiredAndOptional => exact requiredAndOptional_leaves _ _

/-! ## Derivations -/

mutual

/-- The leaves of what is derived are those of the tokens. -/
theorem Derivation.leaves_meaning {symbol : Symbol} : (derivation : Derivation symbol) →
    symbol.leaves derivation.meaning = derivation.yield.filterMap Token.leaf?
  | .token token => token.filterMap_leaf?.symm
  | .apply production children =>
      (production.leaves_action children.meanings).trans children.leaves_meanings

theorem Forest.leaves_meanings {symbols : List Symbol} : (forest : Forest symbols) →
    leavesOfEach symbols forest.meanings = forest.yield.filterMap Token.leaf?
  | .nil => rfl
  | .cons first rest => by
      rw [Forest.yield, List.filterMap_append, ← first.leaves_meaning, ← rest.leaves_meanings]
      rfl

end

end Resumable.Grammar
