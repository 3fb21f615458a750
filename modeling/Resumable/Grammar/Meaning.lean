import Resumable.Grammar.Derivation
import Resumable.Source.Declaration

/-!
# What a derivation means

Each phrase of the grammar means a piece of source code. The meaning of a
derivation is built from the bottom up, by the action of each production.
-/

namespace Resumable.Grammar

open Source

/-- What a phrase means. Phrases that grow at their end mean arrays. -/
def Nonterminal.Meaning : Nonterminal → Type
  | .unit => SourceUnit
  | .declarations => Array Declaration
  | .declaration => Declaration
  | .functionDeclaration => Function
  | .formals => List Parameter
  | .parameterSection => List Parameter
  | .optionals => List Parameter
  | .optionalParameters => Array Parameter
  | .optionalParameter => Parameter
  | .parameters => Array Binder
  | .parameter => Binder
  | .body => Body
  | .modifier => Keyword
  | .statements => Array Stmt
  | .statement => Stmt
  | .labels => Name × Array Name
  | .label => Name
  | .unlabeled => Stmt
  | .block => Block
  | .bindings => Array Variable
  | .binding => Variable
  | .clauses => Array CatchClause
  | .clause => CatchClause
  | .arguments => List Expr
  | .argumentSection => List Expr
  | .expressions => Array Expr
  | .expr => Expr
  | .operand => Expr
  | .primary => Expr

/-- What a symbol means: a terminal means a token. -/
def Symbol.Meaning : Symbol → Type
  | .terminal _ => Token
  | .nonterminal phrase => phrase.Meaning

/-- What the symbols of a list mean. -/
def Meanings : List Symbol → Type
  | [] => Unit
  | symbol :: symbols => symbol.Meaning × Meanings symbols

/-- The required parameters of some binders. -/
def requiredParameters (binders : Array Binder) : List Parameter :=
  binders.toList.map .required

/-- What a production makes of the meanings of its symbols. -/
def Production.action : (p : Production) → Meanings p.rhs → p.lhs.Meaning
  | .unitOf, (declarations, ()) => Array.toList declarations
  | .noDeclarations, () => #[]
  | .moreDeclarations, (declarations, declaration, ()) => Array.push declarations declaration
  | .functionItself, (function, ()) => Declaration.function function
  | .topLevelVariables, (keyword, bindings, _, ()) =>
      Declaration.bindings (Token.keyword keyword) (Array.toList bindings)
  | .untypedFunction, (name, parameters, body, ()) =>
      Function.mk none (Token.name name) parameters body
  | .typedFunction, (type, name, parameters, body, ()) =>
      Function.mk (Token.name type) (Token.name name) parameters body
  | .formals, (_, parameters, _, ()) => parameters
  | .noParameters, () => []
  | .requiredOnly, (binders, ()) => requiredParameters binders
  | .requiredAndOptional, (binders, _, parameters, ()) =>
      List.append (requiredParameters binders) parameters
  | .optionalOnly, (parameters, ()) => parameters
  | .optionals, (_, parameters, _, ()) => Array.toList parameters
  | .firstOptional, (parameter, ()) => #[parameter]
  | .moreOptionals, (parameters, _, parameter, ()) => Array.push parameters parameter
  | .optionalPlain, (binder, ()) => Parameter.optional binder none
  | .optionalDefault, (binder, _, value, ()) => Parameter.optional binder (some value)
  | .firstParameter, (binder, ()) => #[binder]
  | .moreParameters, (binders, _, binder, ()) => Array.push binders binder
  | .untypedParameter, (name, ()) => Binder.mk (Token.name name) none
  | .typedParameter, (type, name, ()) => Binder.mk (Token.name name) (Token.name type)
  | .blockBody, (statements, ()) => Body.block statements none
  | .modifiedBlockBody, (modifier, statements, ()) => Body.block statements (some modifier)
  | .arrowBody, (_, value, _, ()) => Body.arrow value none
  | .modifiedArrowBody, (modifier, _, value, _, ()) => Body.arrow value (some modifier)
  | .asyncModifier, (keyword, ()) => Token.keyword keyword
  | .asyncStarModifier, (keyword, _, ()) => Keyword.mk "async*" (Token.spot keyword)
  | .syncStarModifier, (keyword, _, ()) => Keyword.mk "sync*" (Token.spot keyword)
  | .noStatements, () => #[]
  | .moreStatements, (statements, statement, ()) => Array.push statements statement
  | .plainStatement, (statement, ()) => statement
  | .labeledStatement, ((first, others), statement, ()) =>
      Stmt.labeled first (Array.toList others) statement
  | .firstLabel, (first, ()) => (first, #[])
  | .moreLabels, ((first, others), another, ()) => (first, Array.push others another)
  | .label, (name, _, ()) => Token.name name
  | .blockStatement, (statements, ()) => Stmt.block statements
  | .variableStatement, (keyword, bindings, _, ()) =>
      Stmt.declaration (Token.keyword keyword) (Array.toList bindings)
  | .expressionStatement, (value, _, ()) => Stmt.expression value
  | .emptyStatement, (mark, ()) => Stmt.empty (Token.spot mark)
  | .bareReturn, (keyword, _, ()) => Stmt.returning (Token.keyword keyword) none
  | .returnValue, (keyword, value, _, ()) => Stmt.returning (Token.keyword keyword) (some value)
  | .ifThen, (keyword, _, condition, _, statements, ()) =>
      Stmt.ifThen (Token.keyword keyword) condition (.block statements)
  | .ifElse, (keyword, _, condition, _, statements, _, statement, ()) =>
      Stmt.ifElse (Token.keyword keyword) condition (.block statements) statement
  | .whileLoop, (keyword, _, condition, _, statement, ()) =>
      Stmt.whileLoop (Token.keyword keyword) condition statement
  | .doLoop, (keyword, statement, _, _, condition, _, _, ()) =>
      Stmt.doLoop (Token.keyword keyword) statement condition
  | .bareBreak, (keyword, _, ()) => Stmt.breaking (Token.keyword keyword) none
  | .labeledBreak, (keyword, first, _, ()) =>
      Stmt.breaking (Token.keyword keyword) (Token.name first)
  | .bareContinue, (keyword, _, ()) => Stmt.continuing (Token.keyword keyword) none
  | .labeledContinue, (keyword, first, _, ()) =>
      Stmt.continuing (Token.keyword keyword) (Token.name first)
  | .tryCatch, (keyword, statements, clauses, ()) =>
      Stmt.attempt (Token.keyword keyword) statements (Array.toList clauses)
  | .tryFinally, (keyword, statements, _, finalizer, ()) =>
      Stmt.attemptFinally (Token.keyword keyword) statements [] finalizer
  | .tryCatchFinally, (keyword, statements, clauses, _, finalizer, ()) =>
      Stmt.attemptFinally (Token.keyword keyword) statements (Array.toList clauses) finalizer
  | .block, (_, statements, _, ()) => Array.toList statements
  | .firstBinding, (binding, ()) => #[binding]
  | .moreBindings, (bindings, _, binding, ()) => Array.push bindings binding
  | .plainBinding, (name, ()) => Variable.mk (Token.name name) none
  | .initializedBinding, (name, _, value, ()) => Variable.mk (Token.name name) (some value)
  | .firstClause, (clause, ()) => #[clause]
  | .moreClauses, (clauses, clause, ()) => Array.push clauses clause
  | .catchClause, (_, _, exception, _, statements, ()) =>
      CatchClause.mk none (Token.name exception) none statements
  | .catchWithTrace, (_, _, exception, _, trace, _, statements, ()) =>
      CatchClause.mk none (Token.name exception) (Token.name trace) statements
  | .onClause, (_, type, statements, ()) => CatchClause.mk (Token.name type) none none statements
  | .onCatchClause, (_, type, _, _, exception, _, statements, ()) =>
      CatchClause.mk (Token.name type) (Token.name exception) none statements
  | .arguments, (_, values, _, ()) => values
  | .noArguments, () => []
  | .someArguments, (expressions, ()) => Array.toList expressions
  | .firstExpression, (value, ()) => #[value]
  | .moreExpressions, (expressions, _, value, ()) => Array.push expressions value
  | .assignment, (name, _, value, ()) => Expr.assignment (.identifier (Token.name name)) value
  | .propertyAssignment, (target, _, name, _, value, ()) =>
      Expr.assignment (.property target (Token.name name)) value
  | .throwing, (keyword, value, ()) => Expr.throwing (Token.keyword keyword) value
  | .plainOperand, (value, ()) => value
  | .plainPrimary, (value, ()) => value
  | .call, (name, values, ()) => Expr.call (Token.name name) values
  | .property, (target, _, name, ()) => Expr.property target (Token.name name)
  | .methodCall, (target, _, name, values, ()) =>
      Expr.methodCall target (Token.name name) values
  | .integer, (token, ()) => Token.integer token
  | .string, (token, ()) => Token.string token
  | .identifier, (name, ()) => Expr.identifier (Token.name name)
  | .parenthesized, (_, value, _, ()) => value

mutual

/-- The meaning of a derivation. -/
def Derivation.meaning {symbol : Symbol} : Derivation symbol → symbol.Meaning
  | .token token => token
  | .apply production children => production.action children.meanings

/-- The meanings of a list of derivations. -/
def Forest.meanings {symbols : List Symbol} : Forest symbols → Meanings symbols
  | .nil => ()
  | .cons first rest => (first.meaning, rest.meanings)

end

end Resumable.Grammar
