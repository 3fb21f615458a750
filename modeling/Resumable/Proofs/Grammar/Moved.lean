import Resumable.Grammar.Meaning
import Resumable.Proofs.Canon.Moved
import Resumable.Proofs.Token.Filler

/-!
# Derivations of moved tokens

If the tokens of a derivation are moved, what it means is moved with them. Each
production makes the same phrase of its parts wherever these stand.
-/

namespace Resumable.Grammar

open Source

/-! ## Moving what is derived -/

mutual

/-- A derivation with its tokens moved. -/
def Derivation.moved (move : Spot → Spot) {symbol : Symbol} : Derivation symbol → Derivation symbol
  | .token token => .token (token.moved move)
  | .apply production children => .apply production (children.moved move)

def Forest.moved (move : Spot → Spot) {symbols : List Symbol} : Forest symbols → Forest symbols
  | .nil => .nil
  | .cons first rest => .cons (first.moved move) (rest.moved move)

end

mutual

theorem Derivation.yield_moved (move : Spot → Spot) {symbol : Symbol} :
    (derivation : Derivation symbol) →
    (derivation.moved move).yield = derivation.yield.map (Token.moved move)
  | .token _ => rfl
  | .apply _ children => children.yield_moved move

theorem Forest.yield_moved (move : Spot → Spot) {symbols : List Symbol} :
    (forest : Forest symbols) → (forest.moved move).yield = forest.yield.map (Token.moved move)
  | .nil => rfl
  | .cons first rest => by
      rw [Forest.moved, Forest.yield, first.yield_moved move, rest.yield_moved move,
        ← List.map_append, Forest.yield]

end

/-- What a phrase means, with each spot in it moved. -/
def Nonterminal.moved (move : Spot → Spot) :
    (phrase : Nonterminal) → phrase.Meaning → phrase.Meaning
  | .unit => List.map (Declaration.moved move)
  | .declarations => Array.map (Declaration.moved move)
  | .declaration => Declaration.moved move
  | .functionDeclaration => Function.moved move
  | .formals | .parameterSection | .optionals => List.map (Parameter.moved move)
  | .optionalParameters => Array.map (Parameter.moved move)
  | .optionalParameter => Parameter.moved move
  | .parameters => Array.map (Binder.moved move)
  | .parameter => Binder.moved move
  | .body => Body.moved move
  | .modifier => Keyword.moved move
  | .statements => Array.map (Stmt.moved move)
  | .statement | .unlabeled => Stmt.moved move
  | .labels => Prod.map (Name.moved move) (Array.map (Name.moved move))
  | .label => Name.moved move
  | .block => movedStmts move
  | .bindings => Array.map (Variable.moved move)
  | .binding => Variable.moved move
  | .clauses => Array.map (CatchClause.moved move)
  | .clause => CatchClause.moved move
  | .arguments | .argumentSection => movedExprs move
  | .expressions => Array.map (Expr.moved move)
  | .expr | .operand | .primary => Expr.moved move

def Symbol.moved (move : Spot → Spot) : (symbol : Symbol) → symbol.Meaning → symbol.Meaning
  | .terminal _ => Token.moved move
  | .nonterminal phrase => phrase.moved move

def movedMeanings (move : Spot → Spot) :
    (symbols : List Symbol) → Meanings symbols → Meanings symbols
  | [], _ => ()
  | symbol :: symbols, meanings =>
      (symbol.moved move meanings.1, movedMeanings move symbols meanings.2)

/-! ## Actions -/

section Actions

variable (move : Spot → Spot)

theorem requiredParameters_moved (binders : Array Binder) :
    requiredParameters (binders.map (Binder.moved move)) =
      (requiredParameters binders).map (Parameter.moved move) := by
  simp only [requiredParameters, Array.toList_map, List.map_map]
  rfl

theorem allParameters_moved (binders : Array Binder) (optionals : List Parameter) :
    requiredParameters (binders.map (Binder.moved move)) ++ optionals.map (Parameter.moved move) =
      (requiredParameters binders ++ optionals).map (Parameter.moved move) := by
  rw [requiredParameters_moved, List.map_append]

theorem toList_movedExprs (exprs : Array Expr) :
    (exprs.map (Expr.moved move)).toList = movedExprs move exprs.toList := by
  rw [movedExprs_eq, Array.toList_map]

theorem toList_movedStmts (stmts : Array Stmt) :
    (stmts.map (Stmt.moved move)).toList = movedStmts move stmts.toList := by
  rw [movedStmts_eq, Array.toList_map]

theorem toList_movedClauses (clauses : Array CatchClause) :
    (clauses.map (CatchClause.moved move)).toList = movedClauses move clauses.toList := by
  rw [movedClauses_eq, Array.toList_map]

theorem map_singleton {α β : Type} (f : α → β) (item : α) : #[f item] = #[item].map f := by
  rw [List.map_toArray, List.map_singleton]

/-- The action of a production does the same elsewhere. -/
theorem Production.action_moved :
    (production : Production) → (meanings : Meanings production.rhs) →
    production.action (movedMeanings move production.rhs meanings) =
      production.lhs.moved move (production.action meanings)
  | .unitOf, _ => Array.toList_map
  | .noDeclarations, _ => Array.map_empty.symm
  | .moreDeclarations, _ => Array.map_push.symm
  | .functionItself, _ => rfl
  | .topLevelVariables, _ => congrArg (Declaration.bindings _) Array.toList_map
  | .untypedFunction, _ => rfl
  | .typedFunction, _ => rfl
  | .formals, _ => rfl
  | .noParameters, _ => rfl
  | .requiredOnly, _ => requiredParameters_moved move _
  | .requiredAndOptional, _ => allParameters_moved move _ _
  | .optionalOnly, _ => rfl
  | .optionals, _ => Array.toList_map
  | .firstOptional, _ => map_singleton _ _
  | .moreOptionals, _ => Array.map_push.symm
  | .optionalPlain, _ => rfl
  | .optionalDefault, _ => rfl
  | .firstParameter, _ => map_singleton _ _
  | .moreParameters, _ => Array.map_push.symm
  | .untypedParameter, _ => rfl
  | .typedParameter, _ => rfl
  | .blockBody, _ => rfl
  | .modifiedBlockBody, _ => rfl
  | .arrowBody, _ => rfl
  | .modifiedArrowBody, _ => rfl
  | .asyncModifier, _ => rfl
  | .asyncStarModifier, _ => rfl
  | .syncStarModifier, _ => rfl
  | .noStatements, _ => Array.map_empty.symm
  | .moreStatements, _ => Array.map_push.symm
  | .plainStatement, _ => rfl
  | .labeledStatement, _ => congrArg (Stmt.labeled _ · _) Array.toList_map
  | .firstLabel, _ => congrArg (Prod.mk _) Array.map_empty.symm
  | .moreLabels, _ => congrArg (Prod.mk _) Array.map_push.symm
  | .label, _ => rfl
  | .blockStatement, _ => rfl
  | .variableStatement, _ => congrArg (Stmt.declaration _) Array.toList_map
  | .expressionStatement, _ => rfl
  | .emptyStatement, _ => rfl
  | .bareReturn, _ => rfl
  | .returnValue, _ => rfl
  | .ifThen, _ => rfl
  | .ifElse, _ => rfl
  | .whileLoop, _ => rfl
  | .doLoop, _ => rfl
  | .bareBreak, _ => rfl
  | .labeledBreak, _ => rfl
  | .bareContinue, _ => rfl
  | .labeledContinue, _ => rfl
  | .tryCatch, _ => congrArg (Stmt.attempt _ _) (toList_movedClauses move _)
  | .tryFinally, _ => rfl
  | .tryCatchFinally, _ => congrArg (Stmt.attemptFinally _ _ · _) (toList_movedClauses move _)
  | .block, _ => toList_movedStmts move _
  | .firstBinding, _ => map_singleton _ _
  | .moreBindings, _ => Array.map_push.symm
  | .plainBinding, _ => rfl
  | .initializedBinding, _ => rfl
  | .firstClause, _ => map_singleton _ _
  | .moreClauses, _ => Array.map_push.symm
  | .catchClause, _ => rfl
  | .catchWithTrace, _ => rfl
  | .onClause, _ => rfl
  | .onCatchClause, _ => rfl
  | .arguments, _ => rfl
  | .noArguments, _ => rfl
  | .someArguments, _ => toList_movedExprs move _
  | .firstExpression, _ => map_singleton _ _
  | .moreExpressions, _ => Array.map_push.symm
  | .assignment, _ => rfl
  | .propertyAssignment, _ => rfl
  | .throwing, _ => rfl
  | .plainOperand, _ => rfl
  | .plainPrimary, _ => rfl
  | .call, _ => rfl
  | .property, _ => rfl
  | .methodCall, _ => rfl
  | .integer, _ => rfl
  | .string, _ => rfl
  | .identifier, _ => rfl
  | .parenthesized, _ => rfl

end Actions

mutual

/-- What a derivation of moved tokens means is moved. -/
theorem Derivation.meaning_moved (move : Spot → Spot) {symbol : Symbol} :
    (derivation : Derivation symbol) →
    (derivation.moved move).meaning = symbol.moved move derivation.meaning
  | .token _ => rfl
  | .apply production children => by
      rw [Derivation.moved, Derivation.meaning, children.meanings_moved move,
        production.action_moved move]
      rfl

theorem Forest.meanings_moved (move : Spot → Spot) {symbols : List Symbol} :
    (forest : Forest symbols) →
    (forest.moved move).meanings = movedMeanings move symbols forest.meanings
  | .nil => rfl
  | .cons first rest => by
      rw [Forest.moved, Forest.meanings, first.meaning_moved move, rest.meanings_moved move]
      rfl

end

end Resumable.Grammar
